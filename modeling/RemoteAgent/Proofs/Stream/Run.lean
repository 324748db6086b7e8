import RemoteAgent.Stream.Machine

/-! # Runs of machines on streams

What every action of a machine keeps, a whole run keeps. The second form is for facts about the
machine alone, whatever the stream does.
-/

namespace RemoteAgent.StreamMachine

open ByteStream

variable {μ ρ σ : Type} [StreamMachine μ ρ] [ByteStream σ]

theorem run_finish {m : μ} {s : σ} {result : ρ} (h : action m = .finish result) :
    run m s = (result, s) := by
  rw [run.eq_def]
  split <;> simp_all

theorem run_write {m : μ} {s : σ} {bytes : List UInt8} {next : Except IoError Nat → μ}
    (h : action m = .write bytes next) :
    run m s = run (next (write bytes s).1) (write bytes s).2 := by
  rw [run.eq_def]
  split <;> simp_all

theorem run_flush {m : μ} {s : σ} {next : Except IoError Unit → μ} (h : action m = .flush next) :
    run m s = run (next (flush s).1) (flush s).2 := by
  rw [run.eq_def]
  split <;> simp_all

theorem run_read {m : μ} {s : σ} {limit : Nat} {next : Except IoError (List UInt8) → μ}
    (h : action m = .read limit next) :
    run m s = run (next (read limit s).1) (read limit s).2 := by
  rw [run.eq_def]
  split <;> simp_all

/-- What the actions keep of machine and stream, a run keeps up to its result. -/
theorem run_induction {I : μ → σ → Prop} {Q : ρ → σ → Prop}
    (hfinish : ∀ {m s result}, action m = .finish result → I m s → Q result s)
    (hwrite : ∀ {m s bytes next}, action m = .write bytes next → I m s →
      I (next (write bytes s).1) (write bytes s).2)
    (hflush : ∀ {m s next}, action m = .flush next → I m s →
      I (next (flush s).1) (flush s).2)
    (hread : ∀ {m s limit next}, action m = .read limit next → I m s →
      I (next (read limit s).1) (read limit s).2)
    (m : μ) (s : σ) (h : I m s) : Q (run m s).1 (run m s).2 := by
  fun_induction run m s with
  | case1 m s result ha => exact hfinish ha h
  | case2 m s bytes next ha ih => exact ih (hwrite ha h)
  | case3 m s next ha ih => exact ih (hflush ha h)
  | case4 m s limit next ha ih => exact ih (hread ha h)

/-- What every outcome keeps of the machine holds of the result on every stream. -/
theorem run_result {I : μ → Prop} {Q : ρ → Prop}
    (hfinish : ∀ {m result}, action m = .finish result → I m → Q result)
    (hwrite : ∀ {m bytes next}, action m = .write bytes next → I m → ∀ o, I (next o))
    (hflush : ∀ {m next}, action m = .flush next → I m → ∀ o, I (next o))
    (hread : ∀ {m limit next}, action m = .read limit next → I m → ∀ o, I (next o))
    (m : μ) (s : σ) (h : I m) : Q (run m s).1 :=
  run_induction (I := fun m (_ : σ) => I m) (Q := fun r (_ : σ) => Q r)
    (fun ha h => hfinish ha h) (fun ha h => hwrite ha h _) (fun ha h => hflush ha h _)
    (fun ha h => hread ha h _) m s h

end RemoteAgent.StreamMachine
