import RemoteAgent.Connection.ErrorOutput
import RemoteAgent.Process.Basic
import RemoteAgent.Stream.Machine
import RemoteAgent.Transport.Error

/-!
# Connections to processes

What is written to a connection is given to a process as its standard input, and what is read from
it is the standard output. Closing ends the input, gives the process some time to end, and kills it
then. -/

namespace RemoteAgent

structure Connection where
  process : Process
  /-- The status of the process once the connection is closed. -/
  status : Option ExitStatus
  /-- Whether the process can still be written to. -/
  inputOpen : Bool
  /-- What the process has been given. -/
  given : List UInt8
  /-- How often the process has been given something. -/
  writes : Nat
  /-- How many bytes of output have come out of the pipe. -/
  taken : Nat
  /-- How often the pipe has been read. -/
  reads : Nat
  /-- Bytes that came out of the pipe and were not asked for yet. -/
  buffer : List UInt8
  /-- The output ends here if the process was killed. -/
  cutoff : Option Nat
  /-- How long the process is given to end when the connection is closed. -/
  killDelay : Duration

/-- What a deadline is for. -/
inductive Direction where
  | read
  | write
  | both
  deriving DecidableEq, Repr

def Direction.text : Direction → String
  | read => "read"
  | write => "write"
  | both => "read/write"

namespace Connection

def bufferSize : Nat := 8192

def new (process : Process) (killDelay : Duration) : Connection where
  process := process
  status := none
  inputOpen := true
  given := []
  writes := 0
  taken := 0
  reads := 0
  buffer := []
  cutoff := none
  killDelay := killDelay

/-- The output so far. -/
def output (c : Connection) : List UInt8 :=
  let all := c.process.output c.given (!c.inputOpen)
  match c.cutoff with
  | none => all
  | some n => all.take n

/-- The output that has not come out of the pipe. -/
def pending (c : Connection) : List UInt8 :=
  c.output.drop c.taken

/-- Whether the process waits for its output to be read. -/
def isBlocked (c : Connection) : Bool :=
  Process.pipeCapacity < c.pending.length

/-- Whether the process has ended by itself. -/
def hasEnded (c : Connection) : Bool :=
  c.status.isSome ||
    (!c.isBlocked &&
      match c.process.ending c.given (!c.inputOpen) with
      | some e => e.after.nanoseconds = 0
      | none => false)

/-- Writing ends for good when the input is ended. -/
def closedPipe : IoError :=
  .custom .brokenPipe "connection closed"

/-- How many bytes of an offer of this size the pipe takes. -/
def accepted (size : Nat) (c : Connection) : Nat :=
  match c.process.acceptance c.writes with
  | some limit => min size (limit + 1)
  | none => size

/-- Gives the process as much of an offer as the pipe takes. -/
def give (bytes : List UInt8) (c : Connection) : Connection :=
  { c with given := c.given ++ bytes.take (c.accepted bytes.length), writes := c.writes + 1 }

/-- Offers bytes; a process that runs is given those that the pipe takes. -/
def offer (bytes : List UInt8) (c : Connection) : Except IoError Nat × Connection :=
  if !c.inputOpen then (.error closedPipe, c)
  else if bytes.isEmpty then (.ok 0, c)
  else if c.hasEnded then (.error (.system .brokenPipe), c)
  else (.ok (c.accepted bytes.length), c.give bytes)

/-- Writes bytes, which takes no offer if there are none. -/
def write (bytes : List UInt8) (c : Connection) : Except IoError Nat × Connection :=
  if bytes.isEmpty then (.ok 0, c) else c.offer bytes

/-- There is nothing to flush. -/
def flush (c : Connection) : Except IoError Unit × Connection :=
  (.ok (), c)

/-- Takes bytes out of the pipe, at most `limit` of them. -/
def takeOut (limit : Nat) (c : Connection) : List UInt8 × Connection :=
  let bytes := c.pending.take (min limit (c.process.delivery c.reads + 1))
  (bytes, { c with taken := c.taken + bytes.length, reads := c.reads + 1 })

/-- Reads up to `limit` bytes: from the buffer if it holds any, or else from the pipe, through the
buffer unless more is asked for than it can hold. Only processes that end their output are meant: a
read from one that stays alive and silent would not return, and here it reads as the end. -/
def read (limit : Nat) (c : Connection) : Except IoError (List UInt8) × Connection :=
  if !c.buffer.isEmpty then
    (.ok (c.buffer.take limit), { c with buffer := c.buffer.drop limit })
  else if bufferSize ≤ limit then (.ok (c.takeOut limit).1, (c.takeOut limit).2)
  else
    let out := c.takeOut bufferSize
    (.ok (out.1.take limit), { out.2 with buffer := out.1.drop limit })

/-- Ends the input of the process. -/
def shutdown (c : Connection) : Connection :=
  { c with inputOpen := false }

/-- The end that the process comes to within a delay, once its input has ended. -/
def endingWithin (delay : Duration) (c : Connection) : Option Ending :=
  if c.isBlocked then none
  else (c.process.ending c.given true).filter (·.after.nanoseconds ≤ delay.nanoseconds)

/-- Waits for the process, and kills it if it does not end by itself within a delay. What a killed
process had no room for in the pipe is lost. -/
def waitFor (delay : Duration) (c : Connection) : ExitStatus × Connection :=
  match c.endingWithin delay with
  | some e => (e.status, { c with status := some e.status })
  | none =>
    let cutoff := c.taken + min c.pending.length Process.pipeCapacity
    (.killed, { c with status := some .killed, cutoff := some cutoff })

/-- Closes the connection: ends the input and waits for the process. The kill delay is the one that
is set when the wait begins. -/
def close (c : Connection) : Except ConnectionError ExitStatus × Connection :=
  if c.status.isSome then (.error .notRunning, c)
  else
    let waited := c.shutdown.waitFor c.killDelay
    (.ok waited.1, waited.2)

/-- Whether the process had to be killed. -/
def wasKilled (c : Connection) : Bool :=
  c.cutoff.isSome

def setKillDelay (c : Connection) (delay : Duration) : Connection :=
  { c with killDelay := delay }

/-- Pipes cannot be given deadlines. -/
def setDeadline (_ : Connection) (direction : Direction) : Except ConnectionError Unit :=
  .error (.deadlineUnsupported direction.text)

/-- The error output captured so far; all of it once the process has ended. -/
def errorOutput (c : Connection) : String :=
  if c.hasEnded then ErrorOutput.capture c.process.errorOutput
  else (ErrorOutput.ofPieces c.process.errorOutput).text

/-- How much can still be read. -/
def weight (c : Connection) : Nat :=
  c.buffer.length + c.pending.length

theorem pending_takeOut (limit : Nat) (c : Connection) :
    (c.takeOut limit).2.pending = c.pending.drop (c.takeOut limit).1.length := by
  simp only [takeOut, pending, output, List.drop_drop]

theorem pending_eq_append (limit : Nat) (c : Connection) :
    c.pending = (c.takeOut limit).1 ++ (c.takeOut limit).2.pending := by
  rw [pending_takeOut]
  simp only [takeOut, List.length_take]
  rcases Nat.le_total (min limit (c.process.delivery c.reads + 1)) c.pending.length with h | h
  · rw [Nat.min_eq_left h, List.take_append_drop]
  · rw [Nat.min_eq_right h, List.take_of_length_le h, List.drop_length, List.append_nil]

/-- What can be read comes out in order, and nothing is lost. -/
theorem buffer_pending_read {limit : Nat} {c : Connection} {bytes : List UInt8}
    (h : (c.read limit).1 = .ok bytes) :
    c.buffer ++ c.pending = bytes ++ (c.read limit).2.buffer ++ (c.read limit).2.pending := by
  unfold read at h ⊢
  split at h
  next hb =>
    cases h
    rw [if_pos hb]
    exact congrArg (· ++ c.pending) (List.take_append_drop limit c.buffer).symm
  next hb =>
    have hb' : c.buffer = [] := by simpa using hb
    rw [if_neg hb]
    split at h
    next hl =>
      cases h
      have hb'' : (c.takeOut limit).2.buffer = [] := hb'
      rw [if_pos hl, hb', hb'', List.append_nil]
      exact pending_eq_append limit c
    next hl =>
      cases h
      rw [if_neg hl, hb']
      dsimp only
      rw [List.take_append_drop]
      exact pending_eq_append bufferSize c

theorem weight_read_lt {limit : Nat} {c : Connection} (h : MayGoOn (c.read limit).1) :
    (c.read limit).2.weight < c.weight := by
  rcases hr : (c.read limit).1 with cause | bytes
  · exfalso
    unfold read at hr
    split at hr
    · cases hr
    · split at hr <;> cases hr
  · rw [hr] at h
    have hlen := congrArg List.length (buffer_pending_read hr)
    have hpos : 0 < bytes.length := List.length_pos_iff.2 h
    simp only [List.length_append] at hlen
    simp only [weight]
    omega

theorem not_mayRepeat_write (bytes : List UInt8) (c : Connection) :
    ¬ MayRepeat (c.write bytes).1 := by
  unfold write offer
  repeat' split
  all_goals simp [MayRepeat, closedPipe, IoError.kind, SystemError.kind]

instance : ByteStream Connection where
  write := write
  flush := flush
  read := read
  weight := weight
  weight_write h := absurd h (not_mayRepeat_write _ _)
  weight_read := weight_read_lt

end Connection

end RemoteAgent
