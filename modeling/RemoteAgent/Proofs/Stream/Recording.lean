import RemoteAgent.Proofs.Stream.Run

/-! # Recorded streams

A record is kept of every call that is made on a stream, with what it gave. Machines run on a
recorded stream as they do on the stream itself.
-/

namespace RemoteAgent

open ByteStream

/-- A call that is made on a stream, and what it gave. -/
inductive StreamCall where
  | write (offered : List UInt8) (taken : Except IoError Nat)
  | flush (done : Except IoError Unit)
  | read (limit : Nat) (given : Except IoError (List UInt8))

namespace StreamCall

def isWrite : StreamCall → Bool
  | write .. => true
  | flush _ | read .. => false

/-- The bytes that a call has passed on. -/
def passed : StreamCall → List UInt8
  | write offered (.ok count) => offered.take count
  | write _ (.error _) | flush _ | read .. => []

theorem passed_write_isPrefix (offered : List UInt8) (taken : Except IoError Nat) :
    (write offered taken).passed <+: offered := by
  cases taken with
  | error cause => exact List.nil_prefix
  | ok count => exact List.take_prefix _ _

/-- The bytes that have been accepted in these calls. -/
def accepted (calls : List StreamCall) : List UInt8 :=
  calls.flatMap passed

@[simp] theorem accepted_nil : accepted [] = [] := rfl

@[simp] theorem accepted_append (calls more : List StreamCall) :
    accepted (calls ++ more) = accepted calls ++ accepted more := by
  simp [accepted]

@[simp] theorem accepted_singleton (call : StreamCall) : accepted [call] = call.passed := by
  simp [accepted]

end StreamCall

/-- A stream together with the calls that have been made on it. -/
structure Recording (σ : Type) where
  stream : σ
  calls : List StreamCall

namespace Recording

variable {σ μ ρ : Type} [ByteStream σ]

instance : ByteStream (Recording σ) where
  write bytes u :=
    ((write bytes u.stream).1,
      ⟨(write bytes u.stream).2, u.calls ++ [.write bytes (write bytes u.stream).1]⟩)
  flush u := ((flush u.stream).1, ⟨(flush u.stream).2, u.calls ++ [.flush (flush u.stream).1]⟩)
  read limit u :=
    ((read limit u.stream).1,
      ⟨(read limit u.stream).2, u.calls ++ [.read limit (read limit u.stream).1]⟩)
  weight u := weight u.stream
  weight_write h := weight_write h
  weight_read h := weight_read h

/-- The record changes nothing. -/
theorem run_stream [StreamMachine μ ρ] (m : μ) (u : Recording σ) :
    StreamMachine.run m u.stream =
      ((StreamMachine.run m u).1, (StreamMachine.run m u).2.stream) := by
  fun_induction StreamMachine.run m u with
  | case1 m u result ha => exact StreamMachine.run_finish ha
  | case2 m u bytes next ha ih => exact (StreamMachine.run_write ha).trans ih
  | case3 m u next ha ih => exact (StreamMachine.run_flush ha).trans ih
  | case4 m u limit next ha ih => exact (StreamMachine.run_read ha).trans ih

end Recording

end RemoteAgent
