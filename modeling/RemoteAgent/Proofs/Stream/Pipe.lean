import RemoteAgent.Stream.Pipe

/-! # Steps between pipes

What one step of a machine between two pipes can be, and when there is one. How many bytes pass in a
step is left open, except that they have to be there and to fit.
-/

namespace RemoteAgent.PipeEnd

open StreamMachine

variable {μ ρ : Type} [StreamMachine μ ρ]

/-- The steps of a machine between two pipes, of which the outgoing one has a capacity. -/
inductive Moved (capacity : Nat) (e : PipeEnd μ) : PipeEnd μ → Prop where

  | flushed {next : Except IoError Unit → μ} :
      action e.machine = .flush next → Moved capacity e { e with machine := next (.ok ()) }

  | wrote {bytes : List UInt8} {next : Except IoError Nat → μ} {count : Nat} :
      action e.machine = .write bytes next → 0 < count → count ≤ bytes.length →
      e.outgoing.content.length + count ≤ capacity →
      Moved capacity e { e with
        machine := next (.ok count)
        outgoing := { e.outgoing with content := e.outgoing.content ++ bytes.take count } }

  | ended {limit : Nat} {next : Except IoError (List UInt8) → μ} :
      action e.machine = .read limit next → e.incoming.content = [] → e.incoming.closed = true →
      Moved capacity e { e with machine := next (.ok []) }

  | read {limit : Nat} {next : Except IoError (List UInt8) → μ} {count : Nat} :
      action e.machine = .read limit next → 0 < count → count ≤ limit →
      count ≤ e.incoming.content.length →
      Moved capacity e { e with
        machine := next (.ok (e.incoming.content.take count))
        incoming := { e.incoming with content := e.incoming.content.drop count } }

variable {capacity grain : Nat} {e e' : PipeEnd μ}

theorem moved (h : e.step? capacity grain = some e') : Moved capacity e e' := by
  unfold step? at h
  split at h
  · cases h
  next next ha =>
    cases h
    exact .flushed ha
  next bytes next ha =>
    dsimp only at h
    split at h
    · cases h
    next hcount =>
      cases h
      exact .wrote ha (by omega) (by omega) (by omega)
  next limit next ha =>
    dsimp only at h
    split at h
    · split at h
      next hend =>
        cases h
        rw [Bool.and_eq_true, List.isEmpty_iff] at hend
        exact .ended ha hend.1 hend.2
      · cases h
    next hcount =>
      cases h
      exact .read ha (by omega) (by omega) (by omega)

theorem Moved.result?_eq_none (h : Moved capacity e e') : e.result? = none := by
  unfold result?
  cases h with
  | flushed ha | wrote ha | ended ha | read ha => rw [ha]

theorem Moved.closed (h : Moved capacity e e') :
    e'.incoming.closed = e.incoming.closed ∧ e'.outgoing.closed = e.outgoing.closed := by
  cases h with
  | flushed | wrote | ended | read => exact ⟨rfl, rfl⟩

/-- What is in the outgoing pipe stays there; what is written comes after it. -/
theorem Moved.outgoing (h : Moved capacity e e') :
    e'.outgoing.content =
      e.outgoing.content ++ e'.outgoing.content.drop e.outgoing.content.length := by
  cases h with
  | flushed | ended | read => rw [List.drop_length, List.append_nil]
  | wrote => rw [List.drop_left]

/-- A step takes the machine on, unless it takes bytes from a pipe. -/
theorem Moved.lowers (h : Moved capacity e e') :
    rank e'.machine + e'.incoming.content.length <
      rank e.machine + e.incoming.content.length := by
  cases h with
  | flushed ha => exact Nat.add_lt_add_right (rank_flush ha (.ok ())) _
  | @wrote bytes next count ha hpos hle =>
    exact Nat.add_lt_add_right ((rank_write ha (.ok count)).resolve_right And.right) _
  | ended ha =>
    exact Nat.add_lt_add_right ((rank_read ha (.ok [])).resolve_right fun h => h.2 rfl) _
  | @read limit next count ha hpos hle hin =>
    have hrank := rank_read ha (.ok (e.incoming.content.take count))
    dsimp only
    rw [List.length_drop]
    omega

theorem exists_step?_flush {next : Except IoError Unit → μ} (h : action e.machine = .flush next) :
    ∃ e', e.step? capacity grain = some e' := by
  unfold step?
  rw [h]
  exact ⟨_, rfl⟩

theorem exists_step?_write {bytes : List UInt8} {next : Except IoError Nat → μ}
    (h : action e.machine = .write bytes next) (hb : bytes ≠ [])
    (hroom : e.outgoing.content.length < capacity) : ∃ e', e.step? capacity 1 = some e' := by
  have hlen := List.length_pos_iff.2 hb
  unfold step?
  rw [h]
  dsimp only
  rw [if_neg (by omega)]
  exact ⟨_, rfl⟩

theorem exists_step?_read {limit : Nat} {next : Except IoError (List UInt8) → μ}
    (h : action e.machine = .read limit next) (hl : 0 < limit)
    (hin : e.incoming.content ≠ [] ∨ e.incoming.closed = true) :
    ∃ e', e.step? capacity 1 = some e' := by
  unfold step?
  rw [h]
  dsimp only
  by_cases hc : e.incoming.content = []
  · have hclosed := hin.resolve_left fun hne => hne hc
    rw [hc, hclosed, if_pos (by simp)]
    exact ⟨_, rfl⟩
  · have hlen := List.length_pos_iff.2 hc
    rw [if_neg (by omega)]
    exact ⟨_, rfl⟩

/-- A machine that can pass a single byte can take any step that passes some. -/
theorem exists_step?_of_one (hgrain : 0 < grain) (h : ∃ e', e.step? capacity 1 = some e') :
    ∃ e', e.step? capacity grain = some e' := by
  obtain ⟨e', h⟩ := h
  cases moved h with
  | flushed ha => exact exists_step?_flush ha
  | wrote ha hpos hle hroom =>
    unfold step?
    rw [ha]
    dsimp only
    rw [if_neg (by omega)]
    exact ⟨_, rfl⟩
  | ended ha hnil hclosed =>
    unfold step?
    rw [ha, hnil, hclosed]
    exact ⟨_, if_pos (by simp)⟩
  | read ha hpos hle hin =>
    unfold step?
    rw [ha]
    dsimp only
    rw [if_neg (by omega)]
    exact ⟨_, rfl⟩

/-- A machine let go as far as it can has kept what its steps keep and cannot go on. -/
theorem settle_induction {I : PipeEnd μ → Prop} (hcapacity : 0 < capacity)
    (hstep : ∀ {e e'}, Moved capacity e e' → I e → I e') (h : I e) :
    I (settle capacity e) ∧ ¬ ∃ e', (settle capacity e).step? capacity 1 = some e' := by
  fun_induction settle capacity e with
  | case1 e hnone =>
    refine ⟨h, fun hone => ?_⟩
    obtain ⟨e', he'⟩ := exists_step?_of_one hcapacity hone
    rw [hnone] at he'
    cases he'
  | case2 e e' he' ih => exact ih (hstep (moved he') h)

/-- The same machine once nothing more will be written to its incoming pipe. -/
def hangUp (e : PipeEnd μ) : PipeEnd μ :=
  { e with incoming := { e.incoming with closed := true } }

theorem step?_hangUp (h : e.step? capacity grain = some e') :
    e.hangUp.step? capacity grain = some e'.hangUp := by
  obtain ⟨m, ⟨content, closed⟩, outgoing⟩ := e
  unfold step? at h ⊢
  dsimp only [hangUp] at h ⊢
  split at h
  next => cases h
  next =>
    cases h
    rfl
  next =>
    split at h
    next => cases h
    next hcount =>
      cases h
      exact if_neg hcount
  next =>
    split at h
    next hcount =>
      split at h
      next hend =>
        cases h
        rw [Bool.and_eq_true] at hend
        rw [if_pos hcount]
        exact if_pos (by rw [hend.1, Bool.and_true])
      next => cases h
    next hcount =>
      cases h
      exact if_neg hcount

/-- A machine that has finished has not waited for the end of its input. -/
theorem result?_settle_hangUp {result : ρ} (h : (settle capacity e).result? = some result) :
    (settle capacity e.hangUp).result? = some result := by
  fun_induction settle capacity e with
  | case1 e hnone =>
    have hstuck : e.hangUp.step? capacity capacity = none := by
      unfold result? at h
      split at h
      next ha =>
        unfold step?
        simp only [hangUp, ha]
      next => cases h
    rw [settle.eq_def]
    split
    next => exact h
    next he' => exact nomatch he'.symm.trans hstuck
  | case2 e e' he' ih =>
    rw [settle.eq_def]
    split
    next hnone => exact nomatch hnone.symm.trans (step?_hangUp he')
    next e'' he'' =>
      cases he''.symm.trans (step?_hangUp he')
      exact ih h

end RemoteAgent.PipeEnd
