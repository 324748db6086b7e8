import RemoteAgent.Proofs.Bundle.Extract
import RemoteAgent.Proofs.Path.Components

/-! # Which entry is extracted

Whatever the entries of a bundle are, an extraction comes to exactly one thing, and that is decided
by the first entry that bears the platform's name or, if none does, by how the archive ends. Entries
after it do not matter, and neither does the way its name is written.
-/

namespace RemoteAgent.Bundle

/-- What a path names, a `.` at its front aside. -/
def named (path : String) : List Path.Component :=
  Path.withoutHere (Path.mk path).components

theorem bears_iff {entry : Tar.Entry} {name : String} :
    bears entry name = true ↔
      ∃ path, Text.decode? entry.name = some path ∧ named path = (Path.mk name).components := by
  unfold bears named
  rcases Text.decode? entry.name with _ | path
  · simp
  · simp only [Option.some.injEq, exists_eq_left', decide_eq_true_eq, Path.withoutHere_eq]

section Outcomes

variable (contents : Tar.Contents) (os arch : String)

/-- What an extraction comes to: the data of an entry, or the reason why there is none. -/
inductive Extraction : Except BundleError (List UInt8) → Prop where

  | extracted {entry : Tar.Entry} :
      IsFirstBearing contents (os ++ "_" ++ arch) entry → entry.readable = true →
      entry.data.length = entry.size → Extraction (.ok entry.data)

  | truncated {entry : Tar.Entry} :
      IsFirstBearing contents (os ++ "_" ++ arch) entry → entry.readable = true →
      entry.data.length ≠ entry.size →
      Extraction (.error (.truncated entry.size entry.data.length))

  | unreadable {entry : Tar.Entry} :
      IsFirstBearing contents (os ++ "_" ++ arch) entry → entry.readable = false →
      Extraction (.error (.damaged .compression))

  | unsupported :
      (∀ entry ∈ contents.entries, bears entry (os ++ "_" ++ arch) = false) →
      contents.sound = true → Extraction (.error (.unsupportedPlatform os arch))

  | unsound :
      (∀ entry ∈ contents.entries, bears entry (os ++ "_" ++ arch) = false) →
      contents.sound = false → Extraction (.error (.damaged .archive))

variable {contents os arch}

theorem exists_extraction : ∃ result, Extraction contents os arch result := by
  rcases hfind : contents.entries.find? (bears · (os ++ "_" ++ arch)) with _ | entry
  · have hnone : ∀ entry ∈ contents.entries, bears entry (os ++ "_" ++ arch) = false := by
      simpa using List.find?_eq_none.1 hfind
    rcases hs : contents.sound with _ | _
    · exact ⟨_, .unsound hnone hs⟩
    · exact ⟨_, .unsupported hnone hs⟩
  · have hfirst := isFirstBearing_iff.2 hfind
    rcases hr : entry.readable with _ | _
    · exact ⟨_, .unreadable hfirst hr⟩
    · by_cases hl : entry.data.length = entry.size
      · exact ⟨_, .extracted hfirst hr hl⟩
      · exact ⟨_, .truncated hfirst hr hl⟩

/-- The result of an extraction, and the temporary directory after it. -/
def settled (os file : String) (d : TemporaryDirectory) :
    Except BundleError (List UInt8) → Except BundleError Unit × TemporaryDirectory
  | .ok data => (.ok (), d ++ [⟨file, data, if os = "windows" then 0o600 else 0o700⟩])
  | .error cause => (.error cause, d)

theorem settled_injective (os file : String) (d : TemporaryDirectory) :
    Function.Injective (settled os file d) := by
  rintro (cause | data) (cause' | data') h <;> simp_all [settled]

variable {file : String} {d : TemporaryDirectory}

theorem write_create (hd : d.find? file = none) (data : List UInt8) :
    (d.create file).write file data = d ++ [⟨file, data, TemporaryDirectory.newMode⟩] :=
  TemporaryDirectory.modify_append hd rfl _

theorem remove_write_create (hd : d.find? file = none) (data : List UInt8) :
    ((d.create file).write file data).remove file = d := by
  rw [write_create hd]
  exact TemporaryDirectory.remove_append hd rfl

theorem setMode_write_create (hd : d.find? file = none) (data : List UInt8) (mode : Nat) :
    ((d.create file).write file data).setMode file mode = d ++ [⟨file, data, mode⟩] := by
  rw [write_create hd]
  exact TemporaryDirectory.modify_append hd rfl _

theorem extractEntries_of_first {entry : Tar.Entry} (hd : d.find? file = none)
    (h : IsFirstBearing contents (os ++ "_" ++ arch) entry) :
    extractEntries contents os arch file d =
      if entry.readable = false then (.error (.damaged .compression), d)
      else if entry.data.length ≠ entry.size then
        (.error (.truncated entry.size entry.data.length), d)
      else settled os file d (.ok entry.data) := by
  have hfind : contents.entries.find? (bears · (entryName os arch)) = some entry :=
    isFirstBearing_iff.1 h
  unfold settled
  simp only [extractEntries_unrefused, hfind, remove_write_create hd, setMode_write_create hd]
  rw [write_create hd]
  rcases entry.readable with _ | _
  · rfl
  · by_cases hos : os = "windows" <;> simp [hos, TemporaryDirectory.newMode, executableMode]

theorem extractEntries_of_none
    (h : ∀ entry ∈ contents.entries, bears entry (os ++ "_" ++ arch) = false) :
    extractEntries contents os arch file d =
      (if contents.sound then .error (.unsupportedPlatform os arch)
        else .error (.damaged .archive), d) := by
  have hfind : contents.entries.find? (bears · (entryName os arch)) = none :=
    List.find?_eq_none.2 fun entry hmem => by rw [entryName, h entry hmem]; simp
  simp only [extractEntries_unrefused, hfind]
  split <;> rfl

theorem Extraction.extractEntries_eq {result : Except BundleError (List UInt8)}
    (hd : d.find? file = none) (h : Extraction contents os arch result) :
    extractEntries contents os arch file d = settled os file d result := by
  cases h with
  | extracted hfirst hr hl =>
    rw [extractEntries_of_first hd hfirst, hr, if_neg (by simp), if_neg (by simp [hl])]
  | truncated hfirst hr hl =>
    rw [extractEntries_of_first hd hfirst, hr, if_neg (by simp), if_pos hl]
    rfl
  | unreadable hfirst hr =>
    rw [extractEntries_of_first hd hfirst, if_pos hr]
    rfl
  | unsupported hnone hs =>
    rw [extractEntries_of_none hnone, hs]
    rfl
  | unsound hnone hs =>
    rw [extractEntries_of_none hnone, hs]
    rfl

/-- What follows an entry that bears the platform's name does not matter. -/
theorem extractEntries_append {before after after' : List Tar.Entry} {sound sound' : Bool}
    {entry : Tar.Entry} (h : bears entry (os ++ "_" ++ arch) = true) :
    extractEntries ⟨before ++ entry :: after, sound⟩ os arch file d =
      extractEntries ⟨before ++ entry :: after', sound'⟩ os arch file d := by
  have hfind : ∀ after, (before ++ entry :: after).find? (bears · (entryName os arch)) =
      some ((before.find? (bears · (entryName os arch))).getD entry) := by
    intro after
    rw [List.find?_append, List.find?_cons_of_pos (p := (bears · (entryName os arch))) h]
    cases before.find? (bears · (entryName os arch)) <;> rfl
  simp only [extractEntries_unrefused, hfind]

variable (contents os arch)

/-- An extraction comes to what the first entry bearing the platform's name decides: its data, whole
and executable, if it can be read and is as long as its header says. What follows that entry does
not matter, and neither do a `.` at the front of its path, doubled slashes or a slash at the end. -/
theorem extractEntries_iff (hd : d.find? file = none) :
    (∀ result, Extraction contents os arch result ↔
      extractEntries contents os arch file d = settled os file d result) ∧
    (∀ before entry after after' sound sound', bears entry (os ++ "_" ++ arch) = true →
      extractEntries ⟨before ++ entry :: after, sound⟩ os arch file d =
        extractEntries ⟨before ++ entry :: after', sound'⟩ os arch file d) ∧
    (∀ entry, bears entry (os ++ "_" ++ arch) = true ↔
      ∃ path, Text.decode? entry.name = some path ∧
        named path = (Path.mk (os ++ "_" ++ arch)).components) ∧
    (∀ path, (Path.mk path).isAbsolute = false → named ("./" ++ path) = named path) ∧
    (∀ path path', named (path ++ "//" ++ path') = named (path ++ "/" ++ path')) ∧
    (∀ path, path ≠ "" → named (path ++ "/") = named path) ∧
    ∀ bytes, extract (.ok bytes) os arch file d =
      extractEntries (Tar.contents (Gzip.decompress bytes)) os arch file d := by
  refine ⟨fun result => ?_, fun before entry after after' sound sound' h => ?_,
    fun entry => bears_iff, fun path h => Path.withoutHere_components_here h,
    fun path path' => congrArg Path.withoutHere (Path.components_doubled_slash path path'),
    fun path h => congrArg Path.withoutHere (Path.components_trailing_slash h), fun bytes => rfl⟩
  · refine ⟨fun h => h.extractEntries_eq hd, fun h => ?_⟩
    obtain ⟨result', hresult⟩ : ∃ result, Extraction contents os arch result := exists_extraction
    rwa [settled_injective os file d (h.symm.trans (hresult.extractEntries_eq hd))]
  · exact extractEntries_append h

end Outcomes

section Archive

/-- An archive that is damaged after an agent for this platform, the second of two. -/
def damagedArchive : Tar.Contents where
  entries := [
    { name := Text.encode "darwin_arm64", kind := 0x30, size := 1, data := [1], readable := true },
    { name := Text.encode "././/linux_amd64/", kind := 0x30, size := 2, data := [7, 8],
      readable := true },
    { name := Text.encode "linux_amd64", kind := 0x30, size := 9, data := [3],
      readable := false }]
  sound := false

theorem extractEntries_iff_damagedArchive :
    TemporaryDirectory.find? [] "agent" = none ∧
      extractEntries damagedArchive "linux" "amd64" "agent" [] =
        (.ok (), [{ name := "agent", content := [7, 8], mode := 0o700 }]) := by
  refine ⟨rfl, ?_⟩
  have hfirst : IsFirstBearing damagedArchive ("linux" ++ "_" ++ "amd64")
      { name := Text.encode "././/linux_amd64/", kind := 0x30, size := 2, data := [7, 8],
        readable := true } := isFirstBearing_iff.2 (by decide +kernel)
  have hfresh : TemporaryDirectory.find? [] "agent" = none := rfl
  have hextracts := extractEntries_iff damagedArchive "linux" "amd64" hfresh
  rw [(hextracts.1 _).1 (.extracted hfirst rfl rfl)]
  rfl

end Archive

end RemoteAgent.Bundle
