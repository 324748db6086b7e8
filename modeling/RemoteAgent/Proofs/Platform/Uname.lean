import RemoteAgent.Platform.Uname
import RemoteAgent.Proofs.SortedMap
import RemoteAgent.Proofs.Text.Words

/-! # What `uname` says

An output of two words, of which the first names a system and the second a machine, names one
platform. Every other output is refused, and the refusal tells what is wrong with it. The white
space about the words does not matter.
-/

namespace RemoteAgent.Platform

open Text

/-- An output of two words. -/
def IsPair (output system machine : String) : Prop :=
  ∃ before between after : List Char,
    output.toList = before ++ system.toList ++ between ++ machine.toList ++ after ∧
    IsGap before ∧ IsGap between ∧ between ≠ [] ∧ IsGap after ∧
    IsWord system.toList ∧ IsWord machine.toList

/-- The system that goes by a name. -/
inductive NamesSystem (name : String) : String → Prop where

  | windows {start : String} : start ∈ ["CYGWIN", "MINGW", "MSYS"] →
      start.toList <+: name.toList → NamesSystem name "windows"

  | listed {os : String} : (name, os) ∈ unameSystems → NamesSystem name os

/-- The architecture of the machines that go by a name. -/
def NamesMachine (name arch : String) : Prop :=
  (name, arch) ∈ unameMachines

section Names

variable {name os arch value : String}

theorem listed?_eq_some_iff {table : List (String × String)} (h : (table.map (·.1)).Nodup) :
    listed? table name = some value ↔ (name, value) ∈ table := by
  rw [listed?, Option.map_eq_some_iff]
  constructor
  · rintro ⟨e, he, rfl⟩
    obtain ⟨hmem, rfl⟩ := (find?_name_iff h).1 he
    exact hmem
  · exact fun hmem => ⟨_, (find?_name_iff h).2 ⟨hmem, rfl⟩, rfl⟩

theorem isWindowsPosixShell_iff :
    isWindowsPosixShell name = true ↔
      ∃ start ∈ ["CYGWIN", "MINGW", "MSYS"], start.toList <+: name.toList := by
  simp [isWindowsPosixShell, windowsPosixPrefixes]

/-- No listed system could be taken for a POSIX environment on Windows. -/
theorem not_isWindowsPosixShell_of_mem (h : (name, os) ∈ unameSystems) :
    isWindowsPosixShell name = false := by
  have hlisted : ∀ e ∈ unameSystems, isWindowsPosixShell e.1 = false := by decide
  exact hlisted _ h

def system? (name : String) : Option String :=
  if isWindowsPosixShell name then some "windows" else listed? unameSystems name

theorem system?_eq_some_iff : system? name = some os ↔ NamesSystem name os := by
  have hnodup : (unameSystems.map (·.1)).Nodup := by decide
  unfold system?
  split
  next hwindows =>
    obtain ⟨start, hstart, hprefix⟩ := isWindowsPosixShell_iff.1 hwindows
    constructor
    · rintro ⟨⟩
      exact .windows hstart hprefix
    · intro h
      cases h with
      | windows => rfl
      | listed hmem => exact nomatch hwindows.symm.trans (not_isWindowsPosixShell_of_mem hmem)
  next hother =>
    rw [listed?_eq_some_iff hnodup]
    refine ⟨.listed, fun h => ?_⟩
    cases h with
    | windows hstart hprefix => exact absurd (isWindowsPosixShell_iff.2 ⟨_, hstart, hprefix⟩) hother
    | listed hmem => exact hmem

theorem machine?_eq_some_iff : listed? unameMachines name = some arch ↔ NamesMachine name arch :=
  listed?_eq_some_iff (by decide)

end Names

section Reading

variable {output other system machine system' machine' : String}

theorem isPair_iff :
    IsPair output system machine ↔ words output.toList = [system.toList, machine.toList] := by
  rw [words_eq_iff, spells_pair_iff, IsPair]
  constructor
  · rintro ⟨before, between, after, houtput, hbefore, hbetween, hne, hafter, hsystem, hmachine⟩
    exact ⟨hsystem, hmachine, before, between, after, hbefore, hbetween, hne, hafter, houtput⟩
  · rintro ⟨hsystem, hmachine, before, between, after, hbefore, hbetween, hne, hafter, houtput⟩
    exact ⟨before, between, after, houtput, hbefore, hbetween, hne, hafter, hsystem, hmachine⟩

theorem ofUname_of_isPair (h : IsPair output system machine) :
    ofUname output =
      match system? system, listed? unameMachines machine with
      | none, _ => .error (.unrecognizedOs system)
      | some _, none => .error (.unrecognizedArch machine)
      | some os, some arch => .ok ⟨os, arch, true⟩ := by
  rw [isPair_iff] at h
  unfold ofUname system?
  rw [h]
  simp only [String.ofList_toList]
  split
  · rcases listed? unameMachines machine with _ | arch <;> rfl
  · rcases listed? unameSystems system with _ | os
    · rfl
    · rcases listed? unameMachines machine with _ | arch <;> rfl

theorem ofUname_of_not_isPair (h : ∀ system machine, ¬ IsPair output system machine) :
    ofUname output = .error (.malformedOutput output) := by
  unfold ofUname
  split
  next system machine hwords =>
    refine absurd (isPair_iff.2 ?_) (h (String.ofList system) (String.ofList machine))
    rw [hwords, String.toList_ofList, String.toList_ofList]
  · rfl

/-- What an output is read as: the platform that two words name, or why it names none. -/
inductive Reads (output : String) : Except ProbeError Platform → Prop where

  | platform {system machine os arch : String} : IsPair output system machine →
      NamesSystem system os → NamesMachine machine arch → Reads output (.ok ⟨os, arch, true⟩)

  | malformed : (∀ system machine, ¬ IsPair output system machine) →
      Reads output (.error (.malformedOutput output))

  | unrecognizedOs {system machine : String} : IsPair output system machine →
      (∀ os, ¬ NamesSystem system os) → Reads output (.error (.unrecognizedOs system))

  | unrecognizedArch {system machine os : String} : IsPair output system machine →
      NamesSystem system os → (∀ arch, ¬ NamesMachine machine arch) →
      Reads output (.error (.unrecognizedArch machine))

theorem reads_ofUname (output : String) : Reads output (ofUname output) := by
  by_cases hpair : ∃ system machine, IsPair output system machine
  · obtain ⟨system, machine, hpair⟩ := hpair
    rw [ofUname_of_isPair hpair]
    rcases hsystem : system? system with _ | os
    · exact .unrecognizedOs hpair fun os hos =>
        nomatch hsystem.symm.trans (system?_eq_some_iff.2 hos)
    · have hos := system?_eq_some_iff.1 hsystem
      rcases hmachine : listed? unameMachines machine with _ | arch
      · refine .unrecognizedArch hpair hos fun arch harch => ?_
        exact nomatch hmachine.symm.trans (machine?_eq_some_iff.2 harch)
      · exact .platform hpair hos (machine?_eq_some_iff.1 hmachine)
  · have hnone : ∀ system machine, ¬ IsPair output system machine :=
      fun system machine h => hpair ⟨system, machine, h⟩
    rw [ofUname_of_not_isPair hnone]
    exact .malformed hnone

theorem Reads.ofUname_eq {result : Except ProbeError Platform} (h : Reads output result) :
    ofUname output = result := by
  cases h with
  | platform hpair hos harch =>
    rw [ofUname_of_isPair hpair, system?_eq_some_iff.2 hos, machine?_eq_some_iff.2 harch]
  | malformed hnone => exact ofUname_of_not_isPair hnone
  | @unrecognizedOs system _ hpair hos =>
    have hsystem : system? system = none :=
      Option.eq_none_iff_forall_ne_some.2 fun os h => hos os (system?_eq_some_iff.1 h)
    rw [ofUname_of_isPair hpair, hsystem]
  | @unrecognizedArch _ machine _ hpair hos harch =>
    have hmachine : listed? unameMachines machine = none :=
      Option.eq_none_iff_forall_ne_some.2 fun arch h => harch arch (machine?_eq_some_iff.1 h)
    rw [ofUname_of_isPair hpair, system?_eq_some_iff.2 hos, hmachine]

theorem ofUname_eq_iff {result : Except ProbeError Platform} :
    ofUname output = result ↔ Reads output result :=
  ⟨fun h => h ▸ reads_ofUname output, Reads.ofUname_eq⟩

/-- An output is read as a platform exactly if it is a pair of words of which the first begins like
a POSIX environment on Windows or is a listed system, and the second is a listed machine. If it is
no pair, that is the complaint, or else that the first word names no system, or else that the second
names no machine. So nothing but the two words matters. -/
theorem ofUname_grammar (output : String) :
    (∀ p : Platform, ofUname output = .ok p ↔ ∃ system machine, IsPair output system machine ∧
      NamesSystem system p.os ∧ NamesMachine machine p.arch ∧ p.posix = true) ∧
    (∀ text, ofUname output = .error (.malformedOutput text) ↔
      text = output ∧ ∀ system machine, ¬ IsPair output system machine) ∧
    (∀ system, ofUname output = .error (.unrecognizedOs system) ↔
      ∃ machine, IsPair output system machine ∧ ∀ os, ¬ NamesSystem system os) ∧
    (∀ machine, ofUname output = .error (.unrecognizedArch machine) ↔
      ∃ system os, IsPair output system machine ∧ NamesSystem system os ∧
        ∀ arch, ¬ NamesMachine machine arch) ∧
    ∀ other system machine, IsPair output system machine → IsPair other system machine →
      ofUname other = ofUname output := by
  simp only [ofUname_eq_iff]
  refine ⟨fun p => ⟨?_, ?_⟩, fun text => ⟨?_, ?_⟩, fun system => ⟨?_, ?_⟩, fun machine => ⟨?_, ?_⟩,
    fun other system machine hpair hother => ?_⟩
  · intro h
    cases h with
    | platform hpair hos harch => exact ⟨_, _, hpair, hos, harch, rfl⟩
  · rintro ⟨system, machine, hpair, hos, harch, hposix⟩
    obtain ⟨os, arch, posix⟩ := p
    cases hposix
    exact .platform hpair hos harch
  · intro h
    cases h with
    | malformed hnone => exact ⟨rfl, hnone⟩
  · rintro ⟨rfl, hnone⟩
    exact .malformed hnone
  · intro h
    cases h with
    | unrecognizedOs hpair hos => exact ⟨_, hpair, hos⟩
  · rintro ⟨machine, hpair, hos⟩
    exact .unrecognizedOs hpair hos
  · intro h
    cases h with
    | unrecognizedArch hpair hos harch => exact ⟨_, _, hpair, hos, harch⟩
  · rintro ⟨system, os, hpair, hos, harch⟩
    exact .unrecognizedArch hpair hos harch
  · rw [← ofUname_eq_iff, ofUname_of_isPair hpair, ofUname_of_isPair hother]

example : ofUname "\x0bMSYS_NT-6.1\u2003i686\n" = .ok ⟨"windows", "386", true⟩ := by decide

end Reading

end RemoteAgent.Platform
