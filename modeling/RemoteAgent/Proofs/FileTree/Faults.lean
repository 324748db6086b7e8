import Mathlib.Logic.Relation
import RemoteAgent.Proofs.FileTree.Growth
import RemoteAgent.Proofs.FileTree.Overwriting

/-! # Calls that break off

A call may fail where the tree gives no reason: a disk is full, a server is gone, a right is
missing. Then it has done nothing, or a part of what it does. A program is safe if whatever its
calls come to, it passes through nothing but good trees and ends as it should.
-/

namespace RemoteAgent

open FileTree Relation

namespace FileCall

/-- What a call may have done before it is through. Directories are made one by one, a directory is
removed piece by piece, and a file is copied piece by piece to one that has been opened. Everything
else is done at once. -/
inductive Midway : FileCall → FileTree → FileTree → Prop where

  | untouched {c : FileCall} {t : FileTree} : Midway c t t

  | making {directory : Path} {t u : FileTree} :
      ReflTransGen (Makes directory.withAbove) t u → Midway (.makeDirectories directory) t u

  | removing {directory : Path} {l : Location} {ls : List Location} {t : FileTree} :
      t.slot? directory = .ok (some l) → t.IsDirectoryAt l → (∀ k ∈ ls, l <+: k) →
      Midway (.removeTree directory) t (t.clearAll ls)

  | copying {source destination : Path} {l target : Location} {content bytes : List UInt8}
      {mode mode' mode'' : Nat} {accessed accessed' : Timestamp} {t v u : FileTree} {n : Nat} :
      t.locate source = .ok l → t.find? l = some (.file content mode accessed) →
      (openFile destination mode').outcome t = (.ok target, v) →
      v.find? l = some (.file bytes mode'' accessed') →
      (append target (bytes.take n)).outcome v = (.ok (), u) → Midway (.copy source destination) t u

/-- How a call may end: as the tree has it, or with any failure on the way. -/
inductive Ends : (c : FileCall) → FileTree → Except IoError c.Answer → FileTree → Prop where

  | performed {c : FileCall} {t : FileTree} :
      Ends c t (c.perform.outcome t).1 (c.perform.outcome t).2

  | failed {c : FileCall} {t u : FileTree} {cause : IoError} :
      c.Midway t u → Ends c t (.error cause) u

variable {t u : FileTree} {source destination : Path}

theorem Midway.grown {directory : Path} (h : (makeDirectories directory).Midway t u) :
    t.Grown u := by
  cases h with
  | untouched => exact .refl t
  | making h => exact grown_of_makes h

theorem grown_makeDirectories (directory : Path) (t : FileTree) :
    t.Grown ((makeDirectories directory).perform.outcome t).2 := by
  have hperform := outcome_onPath directory (FileTree.makeDirectories directory) t
  have hmakes : t.Grown ((FileTree.makeDirectories directory).outcome t).2 :=
    grown_of_makes (undergoes_makeDirectoriesFrom directory.withAbove t)
  change t.Grown ((onPath directory (FileTree.makeDirectories directory)).outcome t).2
  rw [hperform]
  split
  · exact .refl t
  · exact hmakes

theorem Midway.of_rename (h : (rename source destination).Midway t u) : u = t := by
  cases h
  rfl

theorem Midway.of_removeFile {p : Path} (h : (removeFile p).Midway t u) : u = t := by
  cases h
  rfl

/-- A copy that breaks off has done nothing, or written a part of what it copies. -/
theorem Midway.of_copy (h : (copy source destination).Midway t u) :
    u = t ∨ ∃ l target content mode mode' n, Copies t source destination l target content mode ∧
      Overwritten t target ((leftToCopy l target content).take n) mode' u := by
  cases h with
  | untouched => exact .inl rfl
  | @copying _ _ l target content _ mode mode' _ _ _ _ v _ n hlocate hfound hopen hbytes happend =>
    obtain ⟨hreceives, hempty⟩ := (allOrNothing_openFile destination mode' t).of_ok hopen
    have hcopies : Copies t source destination l target content mode :=
      ⟨hlocate, ⟨_, hfound⟩, hreceives⟩
    obtain ⟨_, _, hbytes'⟩ := hcopies.emptied hempty
    cases hbytes.symm.trans hbytes'
    obtain ⟨u', happend', hwritten⟩ := hempty.append ((leftToCopy l target content).take n)
    cases happend.symm.trans happend'
    exact .inr ⟨l, target, content, mode, mode', n, hcopies, hwritten⟩

/-- A copy may break off after any part of what it copies. -/
theorem exists_midway_copy {l target : Location} {content : List UInt8} {mode : Nat}
    (h : Copies t source destination l target content mode) (n : Nat) :
    ∃ u, (copy source destination).Midway t u ∧
      Overwritten t target ((leftToCopy l target content).take n) mode u := by
  obtain ⟨_, hfound⟩ := h.found
  obtain ⟨v, hopen, hempty⟩ := outcome_openFile h.receives mode
  obtain ⟨_, _, hleft⟩ := h.emptied hempty
  obtain ⟨u, happend, hwritten⟩ := hempty.append ((leftToCopy l target content).take n)
  exact ⟨u, .copying h.locate hfound hopen hleft happend, hwritten⟩

end FileCall

namespace FileProgram

variable {α β : Type} {c : FileCall} {p : FileProgram α} {f : α → FileProgram β} {a : α} {b : β}
  {t u v : FileTree} {I : FileTree → Prop} {Q : α → FileTree → Prop} {R : β → FileTree → Prop}

/-- How a program may end, whatever becomes of its calls. -/
inductive Ends {α : Type} : FileProgram α → FileTree → α → FileTree → Prop where

  | done {a : α} {t : FileTree} : Ends (.done a) t a t

  | call {c : FileCall} {next : Except IoError c.Answer → FileProgram α}
      {outcome : Except IoError c.Answer} {a : α} {t v u : FileTree} :
      c.Ends t outcome v → Ends (next outcome) v a u → Ends (.call c next) t a u

/-- What a program may leave a tree as if it is stopped, whatever becomes of its calls. -/
inductive Visits {α : Type} : FileProgram α → FileTree → FileTree → Prop where

  | now {p : FileProgram α} {t : FileTree} : Visits p t t

  | during {c : FileCall} {next : Except IoError c.Answer → FileProgram α} {t u : FileTree} :
      c.Midway t u → Visits (.call c next) t u

  | later {c : FileCall} {next : Except IoError c.Answer → FileProgram α}
      {outcome : Except IoError c.Answer} {t v u : FileTree} :
      c.Ends t outcome v → Visits (next outcome) v u → Visits (.call c next) t u

theorem run_perform (c : FileCall) (t : FileTree) :
    (FileProgram.perform c).run t = c.perform.outcome t :=
  rfl

theorem ends_run (p : FileProgram α) (t : FileTree) : p.Ends t (p.run t).1 (p.run t).2 := by
  induction p generalizing t with
  | done a => exact .done
  | call c next ih => exact .call .performed (ih _ _)

theorem ends_bind_iff :
    (p >>= f).Ends t b u ↔ ∃ a v, p.Ends t a v ∧ (f a).Ends v b u := by
  constructor
  · intro h
    induction p generalizing t with
    | done a => exact ⟨a, t, .done, h⟩
    | call c next ih =>
      cases h with
      | call hcall hnext =>
        obtain ⟨a, v, hnext, hf⟩ := ih _ hnext
        exact ⟨a, v, .call hcall hnext, hf⟩
  · rintro ⟨a, v, hp, hf⟩
    induction hp with
    | done => exact hf
    | call hcall _ ih => exact .call hcall (ih hf)

theorem Visits.of_bind (h : (p >>= f).Visits t u) :
    p.Visits t u ∨ ∃ a v, p.Ends t a v ∧ (f a).Visits v u := by
  induction p generalizing t with
  | done a => exact .inr ⟨a, t, .done, h⟩
  | call c next ih =>
    cases h with
    | now => exact .inl .now
    | during hmidway => exact .inl (.during hmidway)
    | later hcall hnext =>
      rcases ih _ hnext with hnext | ⟨a, v, hnext, hf⟩
      · exact .inl (.later hcall hnext)
      · exact .inr ⟨a, v, .call hcall hnext, hf⟩

/-- Whatever becomes of its calls, a program passes through trees of one kind only, and ends as it
should. -/
structure Safe (p : FileProgram α) (t : FileTree) (I : FileTree → Prop)
    (Q : α → FileTree → Prop) : Prop where
  visits : ∀ u, p.Visits t u → I u
  ends : ∀ a u, p.Ends t a u → Q a u

namespace Safe

theorem pure (hI : I t) (hQ : Q a t) : Safe (pure a) t I Q := by
  constructor
  · intro u h
    cases h
    exact hI
  · intro _ u h
    cases h
    exact hQ

theorem bind (hp : p.Safe t I Q) (hf : ∀ a u, Q a u → (f a).Safe u I R) :
    (p >>= f).Safe t I R := by
  constructor
  · intro u h
    rcases h.of_bind with h | ⟨a, v, hends, hvisits⟩
    · exact hp.visits u h
    · exact (hf a v (hp.ends a v hends)).visits u hvisits
  · intro b u h
    obtain ⟨a, v, hends, hf'⟩ := ends_bind_iff.1 h
    exact (hf a v (hp.ends a v hends)).ends b u hf'

theorem perform {Q : Except IoError c.Answer → FileTree → Prop}
    (hmidway : ∀ u, c.Midway t u → I u ∧ ∀ cause, Q (.error cause) u)
    (hperformed : ∀ outcome u, c.perform.outcome t = (outcome, u) → I u ∧ Q outcome u) :
    (FileProgram.perform c).Safe t I Q := by
  have hends : ∀ {outcome u}, c.Ends t outcome u → I u ∧ Q outcome u := by
    rintro _ _ (_ | h)
    · exact hperformed _ _ rfl
    · exact ⟨(hmidway _ h).1, (hmidway _ h).2 _⟩
  constructor
  · rintro u (_ | h | ⟨hcall, hdone⟩)
    · exact (hmidway _ .untouched).1
    · exact (hmidway _ h).1
    · cases hdone
      exact (hends hcall).1
  · rintro outcome u (_ | ⟨hcall, hdone⟩)
    cases hdone
    exact (hends hcall).2

theorem mono {J : FileTree → Prop} {S : α → FileTree → Prop} (h : p.Safe t I Q)
    (hI : ∀ u, I u → J u) (hQ : ∀ a u, Q a u → S a u) : p.Safe t J S :=
  ⟨fun u hu => hI u (h.visits u hu), fun a u hu => hQ a u (h.ends a u hu)⟩

end Safe

end FileProgram

end RemoteAgent
