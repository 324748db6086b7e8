import RemoteAgent.IoError

/-!
# Machines on byte streams

A machine says what it does next and goes on with the outcome. It knows nothing of the stream it
runs on, so one machine runs on a script, on a connection and on a real stream, and two machines can
be run against each other. A run on a stream comes to an end, because every step lowers the rank of
the machine or else the weight of the stream. -/

namespace RemoteAgent

/-- What a machine does next; the outcome decides the state after it. -/
inductive StreamAction (μ ρ : Type) where
  /-- Offers bytes; the outcome is how many of them were taken. -/
  | write (bytes : List UInt8) (next : Except IoError Nat → μ)
  | flush (next : Except IoError Unit → μ)
  /-- Asks for up to `limit` bytes; no bytes stand for the end of the stream. -/
  | read (limit : Nat) (next : Except IoError (List UInt8) → μ)
  | finish (result : ρ)

/-- A write that may be made again as it was. -/
def MayRepeat : Except IoError Nat → Prop
  | .ok _ => False
  | .error cause => cause.kind = .interrupted

/-- A read after which there may be more to read. -/
def MayGoOn : Except IoError (List UInt8) → Prop
  | .ok bytes => bytes ≠ []
  | .error cause => cause.kind = .interrupted

/-- A machine with results of type `ρ`. An action lowers the rank unless it has to be repeated. -/
class StreamMachine (μ : Type) (ρ : outParam Type) where
  action : μ → StreamAction μ ρ
  rank : μ → Nat
  rank_write {m : μ} {bytes next} : action m = .write bytes next → ∀ outcome,
    rank (next outcome) < rank m ∨ rank (next outcome) = rank m ∧ MayRepeat outcome
  rank_flush {m : μ} {next} : action m = .flush next → ∀ outcome, rank (next outcome) < rank m
  rank_read {m : μ} {limit next} : action m = .read limit next → ∀ outcome,
    rank (next outcome) < rank m ∨ rank (next outcome) = rank m ∧ MayGoOn outcome

/-- A machine that is part of another one lowers the rank of the whole where it lowers its own. -/
theorem lt_or_of_le_add {whole part before above : Nat} {again : Prop}
    (hle : whole ≤ above + part) (h : part < before ∨ part = before ∧ again) :
    whole < above + before ∨ whole = above + before ∧ again := by
  rcases h with lower | ⟨same, hagain⟩
  · exact .inl (by omega)
  · rcases Nat.lt_or_ge whole (above + before) with hlt | hge
    · exact .inl hlt
    · exact .inr ⟨by omega, hagain⟩

/-- A stream with both directions. What makes a machine repeat an action uses up some of it. -/
class ByteStream (σ : Type) where
  write : List UInt8 → σ → Except IoError Nat × σ
  flush : σ → Except IoError Unit × σ
  read : Nat → σ → Except IoError (List UInt8) × σ
  weight : σ → Nat
  weight_write {bytes : List UInt8} {s : σ} :
    MayRepeat (write bytes s).1 → weight (write bytes s).2 < weight s
  weight_read {limit : Nat} {s : σ} :
    MayGoOn (read limit s).1 → weight (read limit s).2 < weight s

namespace StreamMachine

open ByteStream

variable {μ ρ σ : Type} [StreamMachine μ ρ] [ByteStream σ]

def run (m : μ) (s : σ) : ρ × σ :=
  match _h : action m with
  | .finish result => (result, s)
  | .write bytes next => run (next (write bytes s).1) (write bytes s).2
  | .flush next => run (next (flush s).1) (flush s).2
  | .read limit next => run (next (read limit s).1) (read limit s).2
termination_by (rank m, weight s)
decreasing_by
  · rcases rank_write _h (write bytes s).1 with lower | ⟨same, again⟩
    · exact .left _ _ lower
    · rw [same]; exact .right _ (weight_write again)
  · exact .left _ _ (rank_flush _h _)
  · rcases rank_read _h (read limit s).1 with lower | ⟨same, more⟩
    · exact .left _ _ lower
    · rw [same]; exact .right _ (weight_read more)

end StreamMachine

end RemoteAgent
