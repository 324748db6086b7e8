import RemoteAgent.Duration
import RemoteAgent.Process.Status

/-!
# Processes

A process is known by what it does with its standard streams: what it has put on its output depends
on what it has been given, and so does whether and how it ends. -/

namespace RemoteAgent

/-- The end of a process: how long it takes, and its status. -/
structure Ending where
  after : Duration
  status : ExitStatus
  deriving DecidableEq, Repr

structure Process where
  /-- What it has put on standard output once it has been given some input, and the end of the input
  if the flag is set. -/
  output : List UInt8 → Bool → List UInt8
  /-- What it puts on standard error, in the pieces in which it arrives. -/
  errorOutput : List (List UInt8)
  /-- The pipe hands over at most so many bytes of output, and one more, at each read. -/
  delivery : Nat → Nat
  /-- The pipe takes at most so many bytes of input, and one more, at each write, or else all that
  it is offered. -/
  acceptance : Nat → Option Nat
  /-- Whether it ends by itself once it has been given some input, and the end of it if the flag is
  set. -/
  ending : List UInt8 → Bool → Option Ending
  /-- Output is only ever added to. -/
  output_grows : ∀ given more ended, output given false <+: output (given ++ more) ended
  /-- A process that ends without further input ends so whatever comes. -/
  ending_settled : ∀ given e, ending given false = some e → ending given true = some e

namespace Process

/-- What a pipe holds of the output before the process has to wait for its reader. -/
def pipeCapacity : Nat := 65536

/-- The status of a process that is given no input and waited for. Only processes that end by
themselves are meant: one that does not would be waited for without end, and here it is killed. -/
def finalStatus (p : Process) : ExitStatus :=
  ((p.ending [] true).map (·.status)).getD .killed

end Process

end RemoteAgent
