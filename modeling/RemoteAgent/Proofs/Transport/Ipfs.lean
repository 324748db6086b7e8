import RemoteAgent.Proofs.Effect
import RemoteAgent.Proofs.Path.Splitting
import RemoteAgent.Proofs.Transport.Recorded
import RemoteAgent.Transport.Ipfs

/-! # Copies through a gateway

The helper finds the file by one name in the directory that it is started in. The two together are
the path of the file, and where a path cannot be taken apart like this nothing is started.
-/

namespace RemoteAgent.Ipfs

open Effect

variable {ω : Type} {i : Ipfs} {source directory : Path} {name remote : String} {c : Command}

/-- An absolute path that ends in an ordinary name. -/
structure IsCopyable (source : Path) (name : String) : Prop where
  absolute : source.isAbsolute = true
  last : source.components.getLast? = some (.name name.toList)

/-- The command that copies a file which is found by a single name in some directory. -/
structure Carries (i : Ipfs) (source : Path) (name remote : String) (c : Command) : Prop where
  program : c.program = i.helper
  arguments : c.arguments = ["cp", "-r", name, i.endpoint.hostname ++ ":" ++ remote]
  single : (Path.mk name).components = [.name name.toList]
  joined : ∃ directory, c.directory = some directory ∧
    (directory.join name).components = source.components

theorem withVariables_eq (c : Command) (settings : List (String × String)) :
    c.withVariables settings =
      { c with environment := (c.withVariables settings).environment } := by
  induction settings generalizing c with
  | nil => rfl
  | cons setting settings ih => exact ih (c.withVariable setting.1 setting.2)

theorem fileName?_eq_some_iff : source.fileName? = some name ↔
    source.components.getLast? = some (.name name.toList) := by
  unfold Path.fileName?
  split
  next cs hlast =>
    rw [hlast, Option.some_inj, Option.some_inj, Path.Component.name.injEq]
    constructor
    · rintro rfl
      exact String.toList_ofList.symm
    · rintro rfl
      exact String.ofList_toList
  next hnot =>
    refine iff_of_false nofun fun hlast => ?_
    exact hnot _ hlast

theorem copyCommand_of_isCopyable (h : IsCopyable source name) (i : Ipfs) (remote : String) :
    ∃ c, i.copyCommand source remote = .ok c ∧ Carries i source name remote c := by
  obtain ⟨directory, hdirectory⟩ := Path.parent?_isSome h.last
  have hname : Path.IsName name := by
    simpa using Path.isName_of_mem_components (List.mem_of_getLast? h.last)
  have hhelper := withVariables_eq
    (.new i.helper ["cp", "-r", name, i.endpoint.hostname ++ ":" ++ remote])
    (i.endpoint.resolve variableNames)
  refine ⟨(i.helperCommand ["cp", "-r", name, i.endpoint.hostname ++ ":" ++ remote]).inDirectory
    directory, ?_, ?_, ?_, Path.components_name hname,
    directory, rfl, Path.components_parent_join hdirectory h.last⟩
  · simp [copyCommand, h.absolute, hdirectory, fileName?_eq_some_iff.2 h.last]
  · rw [helperCommand, hhelper]
    rfl
  · rw [helperCommand, hhelper]
    rfl

theorem copyCommand_of_not_isCopyable (h : ¬ ∃ name, IsCopyable source name) (i : Ipfs)
    (remote : String) : ∃ text, i.copyCommand source remote = .error (.configuration text) := by
  unfold copyCommand
  split
  · exact ⟨_, rfl⟩
  next habsolute =>
    split
    next directory name hdirectory hname =>
      refine absurd ⟨name, ?_, fileName?_eq_some_iff.1 hname⟩ h
      simpa using habsolute
    · exact ⟨_, rfl⟩

theorem copyCommand_congr {source' : Path} (habsolute : source'.isAbsolute = source.isAbsolute)
    (hparent : source'.parent? = source.parent?) (hname : source'.fileName? = source.fileName?) :
    i.copyCommand source' remote = .ok c ↔ i.copyCommand source remote = .ok c := by
  unfold copyCommand
  rw [habsolute, hparent, hname]
  split
  · exact iff_of_false nofun nofun
  · split
    · exact Iff.rfl
    · exact iff_of_false nofun nofun

theorem copyCommand_trailing {more : String} (hmore : more = "/" ∨ more = "/.") :
    i.copyCommand ⟨source.text ++ more⟩ remote = .ok c ↔ i.copyCommand source remote = .ok c := by
  by_cases htext : source.text = ""
  · have hsource : source = ⟨""⟩ := by rw [← htext]
    rw [hsource]
    rcases hmore with rfl | rfl
    · exact iff_of_false nofun nofun
    · exact iff_of_false nofun nofun
  · obtain ⟨habsolute, hparent, hname⟩ := Path.parts_trailing htext hmore
    exact copyCommand_congr habsolute hparent hname

variable {file : LocalFile}

theorem outcome_copy_of_ok (h : i.copyCommand file.path remote = .ok c) (host : Host ω) (w : ω) :
    ((i.transport host).copy file remote).outcome w =
      ((ended ((host.start c).outcome w).1).map fun _ => (), ((host.start c).outcome w).2) := by
  have hcommand : (ofExcept (i.copyCommand file.path remote) : Effect ω _ _).outcome w =
      (.ok c, w) := by rw [outcome_ofExcept, h]
  rw [transport, outcome_bind_ok hcommand, outcome_bind, outcome_runToEnd]
  cases ended ((host.start c).outcome w).1 <;> rfl

theorem outcome_copy_of_error {e : TransportError} (h : i.copyCommand file.path remote = .error e)
    (host : Host ω) (w : ω) :
    ((i.transport host).copy file remote).outcome w = (.error e, w) := by
  rw [transport, outcome_bind, outcome_ofExcept, h]

/-- Whatever the path of a file, copying it starts exactly one process, the helper in a directory in
which the file has a single name, if the path is absolute and ends in a name; slashes and `.`s after
it do not count. Otherwise nothing is started. -/
theorem copy_startsHelper (i : Ipfs) (host : Host ω) (file : LocalFile) (remote : String)
    (w : Recorded ω) :
    ((∃ name c, IsCopyable file.path name ∧ Carries i file.path name remote c ∧
        ((i.transport host.recorded).copy file remote).outcome w =
          ((ended ((host.start c).outcome w.outer).1).map fun _ => (),
            ⟨((host.start c).outcome w.outer).2,
              w.uses ++ [.started c ((host.start c).outcome w.outer).1]⟩)) ∨
      (¬ ∃ name, IsCopyable file.path name) ∧
        ∃ text, ((i.transport host.recorded).copy file remote).outcome w =
          (.error (.configuration text), w)) ∧
    (∀ c, i.copyCommand ⟨file.path.text ++ "/"⟩ remote = .ok c ↔
      i.copyCommand file.path remote = .ok c) ∧
    ∀ c, i.copyCommand ⟨file.path.text ++ "/."⟩ remote = .ok c ↔
      i.copyCommand file.path remote = .ok c := by
  refine ⟨?_, fun c => copyCommand_trailing (.inl rfl), fun c => copyCommand_trailing (.inr rfl)⟩
  by_cases hcopyable : ∃ name, IsCopyable file.path name
  · obtain ⟨name, hname⟩ := hcopyable
    obtain ⟨c, hc, hcarries⟩ := copyCommand_of_isCopyable hname i remote
    refine .inl ⟨name, c, hname, hcarries, ?_⟩
    rw [outcome_copy_of_ok hc, outcome_start_recorded]
  · obtain ⟨text, htext⟩ := copyCommand_of_not_isCopyable hcopyable i remote
    refine .inr ⟨hcopyable, text, ?_⟩
    exact outcome_copy_of_error htext _ w

end RemoteAgent.Ipfs
