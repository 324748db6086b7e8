import RemoteAgent.Bundle.TemporaryDirectory

/-! # Looking up temporary files

What every change of the temporary directory does to the file found under a name. A change under a
name that no other file has leaves all other files alone.
-/

namespace RemoteAgent.TemporaryDirectory

variable {d : TemporaryDirectory} {name : String}

theorem find?_create (h : d.find? name = none) :
    (d.create name).find? name = some { name, content := [], mode := newMode } := by
  unfold find? at h
  simp [find?, create, List.find?_append, h]

theorem find?_modify {f : TemporaryFile → TemporaryFile} (hf : ∀ file, (f file).name = file.name) :
    (d.modify name f).find? name = (d.find? name).map f := by
  unfold find? modify
  induction d with
  | nil => rfl
  | cons file d ih =>
    by_cases hn : file.name = name
    · simp [hn, hf]
    · simp only [List.map_cons, hn, if_false, List.find?_cons, decide_false, ih]

theorem find?_write (bytes : List UInt8) :
    (d.write name bytes).find? name =
      (d.find? name).map fun file => { file with content := file.content ++ bytes } :=
  find?_modify fun _ => rfl

theorem find?_setMode (mode : Nat) :
    (d.setMode name mode).find? name = (d.find? name).map fun file => { file with mode } :=
  find?_modify fun _ => rfl

section Fresh

variable {file : TemporaryFile}

theorem find?_eq_none_iff : d.find? name = none ↔ ∀ file ∈ d, file.name ≠ name := by
  simp [find?, List.find?_eq_none]

theorem modify_append (h : d.find? name = none) (hfile : file.name = name)
    (f : TemporaryFile → TemporaryFile) :
    modify (d ++ [file]) name f = d ++ [f file] := by
  have hd : d.map (fun file => if file.name = name then f file else file) = d := by
    refine (List.map_congr_left fun file hmem => ?_).trans (List.map_id d)
    exact if_neg (find?_eq_none_iff.1 h file hmem)
  simp [modify, hd, hfile]

theorem remove_append (h : d.find? name = none) (hfile : file.name = name) :
    remove (d ++ [file]) name = d := by
  have hd : d.filter (·.name ≠ name) = d := by
    refine List.filter_eq_self.2 fun file hmem => ?_
    simpa using find?_eq_none_iff.1 h file hmem
  rw [remove, List.filter_append, hd]
  simp [hfile]

end Fresh

end RemoteAgent.TemporaryDirectory
