import RemoteAgent.Connection.Basic
import RemoteAgent.Proofs.Stream.Run

/-! # Open and closed connections

Reading and writing leave a connection as open as it is. Closing an open one ends the input of its
process, which has then ended by itself or has been killed.
-/

namespace RemoteAgent

namespace Connection

/-- What of a connection is no concern of its streams. -/
structure Handle where
  process : Process
  status : Option ExitStatus
  inputOpen : Bool
  cutoff : Option Nat
  killDelay : Duration

def handle (c : Connection) : Handle :=
  ⟨c.process, c.status, c.inputOpen, c.cutoff, c.killDelay⟩

theorem handle_offer (bytes : List UInt8) (c : Connection) :
    (c.offer bytes).2.handle = c.handle := by
  unfold offer
  repeat' split
  all_goals rfl

theorem handle_write (bytes : List UInt8) (c : Connection) :
    (c.write bytes).2.handle = c.handle := by
  unfold write
  split
  · rfl
  · exact handle_offer bytes c

theorem handle_read (limit : Nat) (c : Connection) : (c.read limit).2.handle = c.handle := by
  unfold read
  repeat' split
  all_goals rfl

/-- Whatever a machine does with the streams of a connection, its handle stays what it is. -/
theorem handle_run {μ ρ : Type} [StreamMachine μ ρ] (m : μ) (c : Connection) :
    (StreamMachine.run m c).2.handle = c.handle := by
  refine StreamMachine.run_induction (I := fun _ d => d.handle = c.handle)
    (Q := fun _ d => d.handle = c.handle) ?_ ?_ ?_ ?_ m c rfl
  · exact fun _ h => h
  · exact fun _ h => (handle_write _ _).trans h
  · exact fun {_ _ _} _ h => h
  · exact fun _ h => (handle_read _ _).trans h

theorem of_endingWithin {c : Connection} {delay : Duration} {e : Ending}
    (h : c.endingWithin delay = some e) :
    c.process.ending c.given true = some e ∧ e.after.nanoseconds ≤ delay.nanoseconds := by
  unfold endingWithin at h
  split at h
  · cases h
  · obtain ⟨hending, hdelay⟩ := Option.filter_eq_some_iff.1 h
    exact ⟨hending, of_decide_eq_true hdelay⟩

/-- The process ends by itself in time, or else it is killed. -/
theorem waitFor_cases (delay : Duration) (c : Connection) :
    (∃ e, c.endingWithin delay = some e ∧
      c.waitFor delay = (e.status, { c with status := some e.status })) ∨
    c.endingWithin delay = none ∧
      c.waitFor delay = (.killed, { c with
        status := some .killed
        cutoff := some (c.taken + min c.pending.length Process.pipeCapacity) }) := by
  unfold waitFor
  split
  next e he => exact .inl ⟨e, he, rfl⟩
  next he => exact .inr ⟨he, rfl⟩

/-- Neither closed nor killed. -/
structure IsOpen (c : Connection) : Prop where
  status : c.status = none
  inputOpen : c.inputOpen = true
  cutoff : c.cutoff = none

/-- The input of the process has ended, and the process has ended by itself within the kill delay or
else has been killed. -/
structure IsClosed (c : Connection) : Prop where
  inputOpen : c.inputOpen = false
  ended : (∃ e, c.process.ending c.given true = some e ∧ c.status = some e.status ∧
      e.after.nanoseconds ≤ c.killDelay.nanoseconds) ∨
    c.status = some .killed ∧ c.wasKilled = true

theorem isOpen_of_handle {c : Connection} {process : Process} {delay : Duration}
    (h : c.handle = (new process delay).handle) :
    c.IsOpen ∧ c.process = process ∧ c.killDelay = delay := by
  simp only [handle, new, Handle.mk.injEq] at h
  obtain ⟨hp, hs, hi, hc, hd⟩ := h
  exact ⟨⟨hs, hi, hc⟩, hp, hd⟩

theorem IsOpen.close {c : Connection} (h : c.IsOpen) :
    c.close.2.IsClosed ∧ c.close.2.status = c.close.1.toOption ∧ c.close.1.toOption.isSome := by
  unfold Connection.close
  rw [if_neg (by simp [h.status])]
  dsimp only
  rcases waitFor_cases c.killDelay c.shutdown with ⟨e, he, hw⟩ | ⟨-, hw⟩ <;> rw [hw]
  · obtain ⟨hending, hdelay⟩ := of_endingWithin he
    exact ⟨⟨rfl, .inl ⟨e, hending, rfl, hdelay⟩⟩, rfl, rfl⟩
  · exact ⟨⟨rfl, .inr ⟨rfl, rfl⟩⟩, rfl, rfl⟩

end Connection

end RemoteAgent
