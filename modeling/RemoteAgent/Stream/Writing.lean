import RemoteAgent.Stream.Machine

/-!
# Writing all of some bytes

Offers what is left until all of it has been taken. To the asynchronous runtime, an offer of which
nothing is taken is a failure, and an offer that is interrupted is made again.
-/

namespace RemoteAgent

inductive Writing where
  /-- These bytes have not been taken yet. -/
  | writing (rest : List UInt8)
  | done (result : Except IoError Unit)

namespace Writing

def start (bytes : List UInt8) : Writing :=
  if bytes.isEmpty then .done (.ok ()) else .writing bytes

def afterWrite (rest : List UInt8) : Except IoError Nat → Writing
  | .ok 0 => .done (.error .writeZero)
  | .ok count => start (rest.drop count)
  | .error cause => if cause.kind = .interrupted then .writing rest else .done (.error cause)

theorem start_of_ne_nil {bytes : List UInt8} (h : bytes ≠ []) : start bytes = .writing bytes :=
  if_neg (by rwa [List.isEmpty_iff])

theorem afterWrite_of_pos {rest : List UInt8} {count : Nat} (hpos : 0 < count) :
    afterWrite rest (.ok count) = start (rest.drop count) := by
  cases count with
  | zero => exact absurd hpos (Nat.lt_irrefl 0)
  | succ => rfl

def action : Writing → StreamAction Writing (Except IoError Unit)
  | writing rest => .write rest (afterWrite rest)
  | done result => .finish result

def rank : Writing → Nat
  | writing rest => 1 + rest.length
  | done _ => 0

theorem rank_start_drop_lt (rest : List UInt8) (count : Nat) :
    rank (start (rest.drop (count + 1))) < 1 + rest.length := by
  unfold start
  split
  · exact Nat.add_pos_left Nat.one_pos _
  next hne =>
    have hpos : 0 < (rest.drop (count + 1)).length := by
      rwa [List.length_pos_iff, ne_eq, ← List.isEmpty_iff]
    rw [List.length_drop] at hpos
    rw [rank, List.length_drop]
    omega

theorem rank_afterWrite (rest : List UInt8) (outcome : Except IoError Nat) :
    rank (afterWrite rest outcome) < 1 + rest.length ∨
      rank (afterWrite rest outcome) = 1 + rest.length ∧ MayRepeat outcome := by
  rcases outcome with cause | _ | count
  · simp only [afterWrite]
    split
    next h => exact .inr ⟨rfl, h⟩
    · exact .inl (Nat.add_pos_left Nat.one_pos _)
  · exact .inl (Nat.add_pos_left Nat.one_pos _)
  · exact .inl (rank_start_drop_lt rest count)

instance : StreamMachine Writing (Except IoError Unit) where
  action := action
  rank := rank
  rank_write {m _ _} h outcome := by
    cases m <;> simp only [action, StreamAction.write.injEq, reduceCtorEq] at h
    obtain ⟨rfl, rfl⟩ := h
    exact rank_afterWrite _ outcome
  rank_flush {m _} h := by cases m <;> simp [action] at h
  rank_read {m _ _} h := by cases m <;> simp [action] at h

end Writing

namespace ByteStream

variable {σ : Type} [ByteStream σ]

/-- Writes all of some bytes. -/
def writeAll (bytes : List UInt8) (s : σ) : Except IoError Unit × σ :=
  StreamMachine.run (Writing.start bytes) s

end ByteStream

end RemoteAgent
