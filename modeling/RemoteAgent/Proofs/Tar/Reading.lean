import RemoteAgent.Proofs.Tar.Archive
import RemoteAgent.Proofs.Tar.Pieces

/-! # Reading an archive header by header

The entries of an archive are those that are reached from its start by steps from one header to the
next, in the order in which they are reached.
-/

namespace RemoteAgent.Tar

variable {s : Gzip.Decompressed} {position next : Nat} {d d' : Described} {e : Option Entry}

theorem pieces_of_found {header : Block} {size start stated dataStart : Nat}
    {pieces : List Piece}
    (h : (if header.kind = sparseKind then
        (sparsePieces? s header size start).bind fun (dataStart, pieces) =>
          header.realSize?.map fun real => (real, dataStart, pieces)
      else header.size?.map fun size' => (size', start, [Piece.data size])) =
        some (stated, dataStart, pieces)) :
    header.statedSize? = some stated ∧ pieces? s header size start = some (dataStart, pieces) := by
  unfold Block.statedSize? pieces?
  by_cases hsparse : header.kind = sparseKind
  · rw [if_pos hsparse] at h ⊢
    rw [if_pos hsparse]
    obtain ⟨_, hmap, hfound⟩ := Option.bind_eq_some_iff.1 h
    obtain ⟨_, hreal, heq⟩ := Option.map_eq_some_iff.1 hfound
    cases heq
    exact ⟨hreal, hmap⟩
  · rw [if_neg hsparse] at h ⊢
    rw [if_neg hsparse]
    obtain ⟨_, hstated, heq⟩ := Option.map_eq_some_iff.1 h
    cases heq
    exact ⟨hstated, rfl⟩

/-- Where no step can be made, reading has come to its end. -/
theorem entries_of_no_step (h : ∀ e next d', ¬ Step s position d e next d') (fuel : Nat)
    (done : List Entry) : (entriesFrom s fuel position d done).entries = done.reverse := by
  cases fuel with
  | zero => rfl
  | succ fuel =>
    rw [entriesFrom]
    split
    · rfl
    · rfl
    next header hblock =>
      split
      · rfl
      next hzero =>
        split
        · rfl
        next hsum =>
          split
          · rfl
          next size hsize =>
            dsimp only
            split
            · rfl
            next hlimit =>
              have hat : HeaderAt s position d header size :=
                ⟨hblock, by simpa using hzero, by simpa using hsum, hsize,
                  Nat.lt_of_not_le hlimit⟩
              split
              next hdescription =>
                split
                next hreadable hnote =>
                  exact absurd (.description hat hdescription (Prod.ext rfl hreadable) hnote)
                    (h _ _ _)
                · rfl
              next hentry =>
                split
                · rfl
                next stated start pieces hfound =>
                  obtain ⟨hstated, hpieces⟩ := pieces_of_found hfound
                  have hentry := (Bool.not_eq_true _).mp hentry
                  exact absurd (.entry hat hentry hstated hpieces) (h _ _ _)

theorem step_or_stop (s : Gzip.Decompressed) (position : Nat) (d : Described) :
    (∃ e next d', Step s position d e next d') ∨
      ∀ fuel done, (entriesFrom s fuel position d done).entries = done.reverse := by
  by_cases hstep : ∃ e next d', Step s position d e next d'
  · exact .inl hstep
  · exact .inr (entries_of_no_step fun e next d' h => hstep ⟨e, next, d', h⟩)

/-- Reading comes from the start of an archive to a position, having found these entries and having
been told this about the next one. -/
inductive Reaches (s : Gzip.Decompressed) : List Entry → Nat → Described → Prop where

  | start : Reaches s [] 0 {}

  | step {es : List Entry} {position next : Nat} {d d' : Described} {e : Option Entry} :
      Reaches s es position d → Step s position d e next d' → Reaches s (es ++ e.toList) next d'

variable {es : List Entry}

theorem Step.lt_next (h : Step s position d e next d') : position + blockSize ≤ next := by
  cases h with
  | description => exact Nat.le_add_right _ _
  | entry => exact Nat.le_trans (Nat.le_add_right _ _) (Nat.le_add_right _ _)

theorem Step.le_size (h : Step s position d e next d') : position + blockSize ≤ s.bytes.size := by
  have hat : ∃ header, blockAt s position = .block header := by
    cases h with
    | description hat => exact ⟨_, hat.block⟩
    | entry hat => exact ⟨_, hat.block⟩
  obtain ⟨header, hblock⟩ := hat
  unfold blockAt at hblock
  split at hblock
  next hle => exact hle
  · split at hblock <;> cases hblock

/-- An entry as its header begins it, with this known about it. Data that is not spread over a
sparse file stands right behind the header. -/
structure Begins (s : Gzip.Decompressed) (position : Nat) (d : Described) (header : Block)
    (e : Entry) : Prop where
  block : blockAt s position = .block header
  hasChecksum : header.hasChecksum = true
  isDescription : header.isDescription = false
  name : e.name = d.name header
  kind : e.kind = header.kind
  size : header.statedSize? = some e.size
  data : ∃ size start pieces, d.dataSize? header = some size ∧
    pieces? s header size (position + blockSize) = some (start, pieces) ∧
    assemble s start .empty pieces = (e.data, e.readable)
  plain : e.kind ≠ sparseKind → StandsAt s (position + blockSize) e.data

theorem Step.begins {e : Entry} (h : Step s position d (some e) next d') :
    ∃ header, Begins s position d header e := by
  have hsize := h.le_size
  cases h with
  | @entry header size stated start pieces hat hentry hstated hpieces =>
    refine ⟨header, hat.block, hat.hasChecksum, hentry, rfl, rfl, hstated,
      ⟨size, start, pieces, hat.dataSize, hpieces, rfl⟩, fun hplain => ?_⟩
    rw [pieces?, if_neg hplain] at hpieces
    cases hpieces
    exact standsAt_assemble hsize _

/-- What is reached is found: every step takes a block, and there are more steps than blocks. -/
theorem Reaches.entriesFrom_eq (h : Reaches s es position d) :
    ∃ fuel, s.bytes.size < position + blockSize * fuel ∧
      contents s = entriesFrom s fuel position d es.reverse := by
  induction h with
  | start =>
    refine ⟨s.bytes.size / blockSize + 2, ?_, rfl⟩
    simp only [blockSize]
    omega
  | step _ hstep ih =>
    obtain ⟨fuel, hfuel, heq⟩ := ih
    have hnext := hstep.lt_next
    have hsize := hstep.le_size
    simp only [blockSize] at hfuel hnext hsize
    obtain ⟨fuel, rfl⟩ : ∃ fuel', fuel = fuel' + 1 := ⟨fuel - 1, by omega⟩
    refine ⟨fuel, by simp only [blockSize]; omega, ?_⟩
    rw [heq, entriesFrom_step hstep, List.reverse_append]
    rcases hstep with _ | _ <;> rfl

/-- Whatever is found is reached. -/
theorem reaches_entriesFrom (fuel : Nat) {done : List Entry}
    (h : Reaches s done.reverse position d) :
    ∃ last told, Reaches s (entriesFrom s fuel position d done).entries last told := by
  induction fuel generalizing position d done with
  | zero => exact ⟨position, d, h⟩
  | succ fuel ih =>
    rcases step_or_stop s position d with ⟨e, next, d', hstep⟩ | hstop
    · rw [entriesFrom_step hstep]
      refine ih ?_
      rw [List.reverse_append]
      have hreversed : e.toList.reverse = e.toList := by cases e <;> rfl
      rw [hreversed]
      exact h.step hstep
    · rw [hstop]
      exact ⟨position, d, h⟩

theorem exists_reaches (s : Gzip.Decompressed) :
    ∃ last told, Reaches s (contents s).entries last told :=
  @reaches_entriesFrom s 0 {} _ [] .start

/-- An entry that is found begins with a header that is reached with the entries before it. -/
theorem Reaches.exists_step {before after : List Entry} {entry : Entry}
    (h : Reaches s es position d) (hes : es = before ++ entry :: after) :
    ∃ last told next, Reaches s before last told ∧ Step s last told (some entry) next {} := by
  induction h generalizing after with
  | start => simp at hes
  | @step es last next told told' e hreaches hstep ih =>
    cases e with
    | none => exact ih (by simpa using hes)
    | some e =>
      rcases List.eq_nil_or_concat after with rfl | ⟨after, e', rfl⟩
      · obtain ⟨rfl, heq⟩ := List.append_inj' hes rfl
        cases heq
        cases hstep with
        | entry hat hentry hstated hpieces =>
          exact ⟨last, told, _, hreaches, .entry hat hentry hstated hpieces⟩
      · rw [List.concat_eq_append, ← List.cons_append, ← List.append_assoc] at hes
        exact ih (List.append_inj' hes rfl).1

theorem reverse_isPrefix_entriesFrom (fuel position : Nat) (d : Described) (done : List Entry) :
    done.reverse <+: (entriesFrom s fuel position d done).entries := by
  induction fuel generalizing position d done with
  | zero => exact List.prefix_rfl
  | succ fuel ih =>
    rcases step_or_stop s position d with ⟨e, next, d', hstep⟩ | hstop
    · rw [entriesFrom_step hstep]
      refine List.IsPrefix.trans ?_ (ih _ _ _)
      rw [List.reverse_append]
      exact List.prefix_append _ _
    · simp only [hstop, List.prefix_rfl]

theorem Reaches.isPrefix (h : Reaches s es position d) : es <+: (contents s).entries := by
  obtain ⟨fuel, -, heq⟩ := h.entriesFrom_eq
  have hprefix := @reverse_isPrefix_entriesFrom s fuel position d es.reverse
  rwa [List.reverse_reverse, ← heq] at hprefix

/-- At the end of an archive there is a block of zeros, or nothing. -/
inductive EndsAt (s : Gzip.Decompressed) (position : Nat) : Prop where

  | finish : blockAt s position = .finish → EndsAt s position

  | zeros {b : Block} : blockAt s position = .block b → b.isZero = true → EndsAt s position

theorem Reaches.contents_eq (h : Reaches s es position d) (hend : EndsAt s position) :
    contents s = ⟨es, d.isNothing⟩ := by
  obtain ⟨fuel, hfuel, heq⟩ := h.entriesFrom_eq
  have hle : position ≤ s.bytes.size := by
    cases hend with
    | finish hfinish =>
      unfold blockAt at hfinish
      split at hfinish
      · cases hfinish
      · split at hfinish
        next hat => exact Nat.le_of_eq hat.1
        · cases hfinish
    | zeros hblock =>
      unfold blockAt at hblock
      split at hblock
      next hle => exact Nat.le_trans (Nat.le_add_right _ _) hle
      · split at hblock <;> cases hblock
  obtain ⟨fuel, rfl⟩ : ∃ fuel', fuel = fuel' + 1 := ⟨fuel - 1, by
    simp only [blockSize] at hfuel
    omega⟩
  rw [heq, entriesFrom]
  cases hend with
  | finish hfinish => simp [hfinish]
  | zeros hblock hzero => simp [hblock, hzero]

end RemoteAgent.Tar
