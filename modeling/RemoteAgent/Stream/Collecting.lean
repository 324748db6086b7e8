import RemoteAgent.Stream.Machine

/-!
# Collecting what can be read

Reads until so many bytes are there, or until the stream ends or fails.
-/

namespace RemoteAgent

/-- Bytes being collected: how many are still wanted (all of them if there is no number), and the
pieces read so far, last first. -/
inductive Collecting where
  | reading (wanted : Option Nat) (pieces : List (List UInt8))
  | done (result : Except IoError (List UInt8))

namespace Collecting

/-- Collecting at most `n` bytes, or all there are. -/
def start (wanted : Option Nat) : Collecting :=
  .reading wanted []

/-- The most that is read at once. -/
def readLimit : Nat := 8192

def finish (pieces : List (List UInt8)) : Collecting :=
  .done (.ok pieces.reverse.flatten)

def afterRead (wanted : Option Nat) (pieces : List (List UInt8)) :
    Except IoError (List UInt8) → Collecting
  | .ok [] => finish pieces
  | .ok bytes => .reading (wanted.map (· - bytes.length)) (bytes :: pieces)
  | .error cause =>
    if cause.kind = .interrupted then .reading wanted pieces else .done (.error cause)

def action : Collecting → StreamAction Collecting (Except IoError (List UInt8))
  | reading (some 0) pieces => .finish (.ok pieces.reverse.flatten)
  | reading wanted pieces =>
    .read (min (wanted.getD readLimit) readLimit) (afterRead wanted pieces)
  | done result => .finish result

def rank : Collecting → Nat
  | reading _ _ => 1
  | done _ => 0

theorem rank_afterRead (wanted : Option Nat) (pieces : List (List UInt8))
    (outcome : Except IoError (List UInt8)) :
    rank (afterRead wanted pieces outcome) < 1 ∨
      rank (afterRead wanted pieces outcome) = 1 ∧ MayGoOn outcome := by
  unfold afterRead
  split
  · simp [rank, finish]
  · simp_all [rank, MayGoOn]
  · split <;> simp_all [rank, MayGoOn]

instance : StreamMachine Collecting (Except IoError (List UInt8)) where
  action := action
  rank := rank
  rank_write {m _ _} h := by
    rcases m with ⟨_ | _ | _, _⟩ | _ <;> simp [action] at h
  rank_flush {m _} h := by
    rcases m with ⟨_ | _ | _, _⟩ | _ <;> simp [action] at h
  rank_read {m _ _} h outcome := by
    rcases m with ⟨_ | _ | n, pieces⟩ | _ <;>
      simp only [action, StreamAction.read.injEq, reduceCtorEq] at h
    · obtain ⟨-, rfl⟩ := h; exact rank_afterRead _ _ outcome
    · obtain ⟨-, rfl⟩ := h; exact rank_afterRead _ _ outcome

end Collecting

namespace ByteStream

variable {σ : Type} [ByteStream σ]

def readUpTo (n : Nat) (s : σ) : Except IoError (List UInt8) × σ :=
  StreamMachine.run (Collecting.start (some n)) s

def readToEnd (s : σ) : Except IoError (List UInt8) × σ :=
  StreamMachine.run (Collecting.start none) s

end ByteStream

end RemoteAgent
