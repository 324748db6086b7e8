import RemoteAgent.Process.Basic

/-!
# Scripted processes

A scripted process writes all of its error output and then all of its output. After that it ends at
once, or when its input ends, or never; in the meantime it may copy its input to its output.
-/

namespace RemoteAgent.Rehearsal

/-- What a scripted process does once it has written its output. -/
inductive Mode where
  /-- It ends at once. -/
  | exit
  /-- It reads its input to the end. -/
  | drain
  /-- It copies its input to its output. -/
  | echo
  /-- It does not end. -/
  | hang
  deriving DecidableEq, Repr

structure Reply where
  output : List UInt8
  errorOutput : List UInt8
  mode : Mode
  status : ExitStatus
  deriving DecidableEq, Repr

namespace Reply

/-- The reply of a shell to a command that it does not know. -/
def notFound : Reply where
  output := []
  errorOutput := "sh: 1: not found\n".toUTF8.data.toList
  mode := .exit
  status := .exited 127

def ending (r : Reply) (ended : Bool) : Option Ending :=
  let e : Ending := ⟨⟨0⟩, r.status⟩
  match r.mode with
  | .exit => some e
  | .drain | .echo => if ended then some e else none
  | .hang => none

def process (r : Reply) : Process where
  output given _ := if r.mode = .echo then r.output ++ given else r.output
  errorOutput := [r.errorOutput]
  delivery _ := Process.pipeCapacity
  acceptance _ := none
  ending _ ended := r.ending ended
  output_grows given more _ := by
    split
    · exact ⟨more, by rw [List.append_assoc]⟩
    · exact List.prefix_rfl
  ending_settled _ e h := by
    unfold ending at h ⊢
    split <;> simp_all

end Reply

end RemoteAgent.Rehearsal
