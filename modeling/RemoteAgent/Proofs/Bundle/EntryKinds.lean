import RemoteAgent.Proofs.Bundle.Members

/-! # Entries of any kind

Extraction goes by the names of entries and never looks at their kinds. If the first entry that
bears the platform's name is a regular file, the entries of other kinds might as well not be there.
If it is of another kind, it is extracted with the data it has, mostly none, and hides a regular
file after it.
-/

namespace RemoteAgent.Tar

/-- Regular files, of the old form or the new one, contiguous, or sparse. -/
def Entry.IsRegular (e : Entry) : Prop :=
  e.kind ∈ [0, 0x30, 0x37, sparseKind]

instance : DecidablePred Entry.IsRegular := fun e =>
  inferInstanceAs (Decidable (e.kind ∈ [0, 0x30, 0x37, sparseKind]))

namespace Contents

/-- What is left without the entries that are not regular files. -/
def filesOnly (contents : Contents) : Contents :=
  { contents with entries := contents.entries.filter (·.IsRegular) }

/-- The same entries, with other kinds. -/
def withKinds (kinds : Entry → UInt8) (contents : Contents) : Contents :=
  { contents with entries := contents.entries.map fun e => { e with kind := kinds e } }

end Contents

end RemoteAgent.Tar

namespace RemoteAgent.Bundle

open Tar

section Entries

variable {contents : Contents} {name os arch file : String} {entry : Entry}
  {d d' : TemporaryDirectory}

theorem extractEntries_eq_ok_iff (hd : d.find? file = none) :
    extractEntries contents os arch file d = (.ok (), d') ↔
      ∃ entry, IsFirstBearing contents (os ++ "_" ++ arch) entry ∧ entry.readable = true ∧
        entry.data.length = entry.size ∧
        d' = d ++ [⟨file, entry.data, if os = "windows" then 0o600 else 0o700⟩] := by
  constructor
  · intro hok
    obtain ⟨result, hresult⟩ : ∃ result, Extraction contents os arch result := exists_extraction
    rw [hresult.extractEntries_eq hd] at hok
    cases hresult with
    | extracted hfirst hreadable hlength =>
      exact ⟨_, hfirst, hreadable, hlength, (Prod.mk.inj hok).2.symm⟩
    | truncated => cases hok
    | unreadable => cases hok
    | unsupported => cases hok
    | unsound => cases hok
  · rintro ⟨entry, hfirst, hreadable, hlength, rfl⟩
    exact (Extraction.extracted hfirst hreadable hlength).extractEntries_eq hd

theorem IsFirstBearing.filesOnly (hfirst : IsFirstBearing contents name entry)
    (hregular : entry.IsRegular) : IsFirstBearing contents.filesOnly name entry := by
  obtain ⟨before, after, hentries, hbears, hbefore⟩ := hfirst
  refine ⟨before.filter (·.IsRegular), after.filter (·.IsRegular), ?_, hbears,
    fun e he => hbefore e (List.mem_filter.1 he).1⟩
  rw [Contents.filesOnly, hentries, List.filter_append, List.filter_cons_of_pos (by simpa)]

theorem extractEntries_filesOnly (hd : d.find? file = none)
    (hfirst : IsFirstBearing contents (os ++ "_" ++ arch) entry) (hregular : entry.IsRegular) :
    extractEntries contents.filesOnly os arch file d = extractEntries contents os arch file d := by
  rw [extractEntries_of_first hd hfirst, extractEntries_of_first hd (hfirst.filesOnly hregular)]

theorem extractEntries_withKinds (kinds : Entry → UInt8) :
    extractEntries (contents.withKinds kinds) os arch file d =
      extractEntries contents os arch file d := by
  unfold extractEntries
  have hfind : (contents.withKinds kinds).entries.find? (bears · (entryName os arch)) =
      (contents.entries.find? (bears · (entryName os arch))).map
        fun e => { e with kind := kinds e } := List.find?_map
  rw [hfind]
  cases contents.entries.find? (bears · (entryName os arch)) <;> rfl

/-- An entry is not found unless it is there: its header stands in the archive after those of the
entries before it. -/
theorem IsFirstBearing.begins {s : Gzip.Decompressed}
    (hfirst : IsFirstBearing (Tar.contents s) name entry) :
    ∃ before position told header, Reaches s before position told ∧
      Begins s position told header entry ∧ ∀ e ∈ before, bears e name = false := by
  obtain ⟨before, after, hentries, -, hbefore⟩ := hfirst
  obtain ⟨last, told, hreaches⟩ := exists_reaches s
  obtain ⟨position, told, next, hreached, hstep⟩ := hreaches.exists_step hentries
  obtain ⟨header, hbegins⟩ := hstep.begins
  exact ⟨before, position, told, header, hreached, hbegins, hbefore⟩

end Entries

variable {file : String} {d : TemporaryDirectory}

/-- What is extracted is the data of the first entry that bears the platform's name, all of it,
whatever its kind; it stands in the archive behind a header of that name. Kinds are not looked at.
If that entry is a regular file, it is what the regular files alone would give. -/
theorem extract_anyKind (bundle : ByteArray) (os arch : String) (hd : d.find? file = none) :
    (∀ d', extract (.ok bundle) os arch file d = (.ok (), d') ↔
      ∃ entry, IsFirstBearing (contents (Gzip.decompress bundle)) (os ++ "_" ++ arch) entry ∧
        entry.readable = true ∧ entry.data.length = entry.size ∧
        d' = d ++ [⟨file, entry.data, if os = "windows" then 0o600 else 0o700⟩]) ∧
    (∀ entry, IsFirstBearing (contents (Gzip.decompress bundle)) (os ++ "_" ++ arch) entry →
      ∃ before position told header, Reaches (Gzip.decompress bundle) before position told ∧
        Begins (Gzip.decompress bundle) position told header entry ∧
        ∀ e ∈ before, bears e (os ++ "_" ++ arch) = false) ∧
    (∀ entry, IsFirstBearing (contents (Gzip.decompress bundle)) (os ++ "_" ++ arch) entry →
      entry.IsRegular → extract (.ok bundle) os arch file d =
        extractEntries (contents (Gzip.decompress bundle)).filesOnly os arch file d) ∧
    ∀ kinds, extract (.ok bundle) os arch file d =
      extractEntries ((contents (Gzip.decompress bundle)).withKinds kinds) os arch file d :=
  ⟨fun _ => extractEntries_eq_ok_iff hd, fun _ hfirst => hfirst.begins,
    fun _ hfirst hregular => (extractEntries_filesOnly hd hfirst hregular).symm,
    fun kinds => (extractEntries_withKinds kinds).symm⟩

section Directory

def linuxAgent : Member :=
  .plain [] (record (header "linux_amd64" 0x30 "5" "4037") "agent")

/-- A directory with the name of a platform. -/
def linuxDirectory : Member :=
  .plain [] (record (header "linux_amd64/" 0x35 "0" "4116") "")

theorem isWellFormed_linuxAgent : linuxAgent.IsWellFormed :=
  Member.isWellFormed_plain (by decide +kernel)

theorem isWellFormed_linuxDirectory : linuxDirectory.IsWellFormed :=
  Member.isWellFormed_plain (by decide +kernel)

theorem holds_linuxAgent :
    Holds (bundleOf [linuxAgent, linuxDirectory]) [linuxAgent, linuxDirectory] ending :=
  holds_bundleOf (by decide +kernel) (by
    simp [isWellFormed_linuxAgent, isWellFormed_linuxDirectory])

theorem extract_anyKind_directory :
    TemporaryDirectory.find? [] "agent" = none ∧
      extract (.ok (bundleOf [linuxAgent, linuxDirectory])) "linux" "amd64" "agent" [] =
        (.ok (), [⟨"agent", Text.encode "agent", 0o700⟩]) := by
  have hfresh : TemporaryDirectory.find? [] "agent" = none := rfl
  have hfirst : [linuxAgent, linuxDirectory].find? (bears ·.entry ("linux" ++ "_" ++ "amd64")) =
      some linuxAgent := by decide +kernel
  have hentry : linuxAgent.entry =
      ⟨Text.encode "linux_amd64", 0x30, 5, Text.encode "agent", true⟩ := by decide +kernel
  have hbearing := holds_linuxAgent.isFirstBearing hfirst
  rw [hentry] at hbearing
  refine ⟨hfresh, ?_⟩
  exact ((extract_anyKind _ "linux" "amd64" hfresh).1 _).2
    ⟨_, hbearing, rfl, by decide +kernel, by rw [if_neg (by decide)]; rfl⟩

theorem holds_linuxDirectory :
    Holds (bundleOf [linuxDirectory, linuxAgent]) [linuxDirectory, linuxAgent] ending :=
  holds_bundleOf (by decide +kernel) (by
    simp [isWellFormed_linuxAgent, isWellFormed_linuxDirectory])

theorem sound_linuxDirectory :
    (Gzip.decompress (bundleOf [linuxDirectory, linuxAgent])).sound = true := by
  rw [bundleOf, Gzip.decompress_stored (by decide +kernel)]

/-- A directory comes before the agent and is extracted in its place. -/
theorem not_extract_onlyFiles :
    ¬ ∀ (bundle : ByteArray) (os arch file : String) (d d' : TemporaryDirectory),
      (Gzip.decompress bundle).sound = true → d.find? file = none →
      extract (.ok bundle) os arch file d = (.ok (), d') →
      ∃ entry ∈ (contents (Gzip.decompress bundle)).entries, entry.IsRegular ∧
        bears entry (os ++ "_" ++ arch) = true ∧
        d' = d ++ [⟨file, entry.data, if os = "windows" then 0o600 else 0o700⟩] := by
  intro h
  have hfirst : [linuxDirectory, linuxAgent].find?
      (bears ·.entry ("linux" ++ "_" ++ "amd64")) = some linuxDirectory := by decide +kernel
  have hextract : extract (.ok (bundleOf [linuxDirectory, linuxAgent])) "linux" "amd64" "agent" [] =
      (.ok (), [⟨"agent", [], 0o700⟩]) := by
    have hempty : linuxDirectory.content = [] := by decide +kernel
    have hsize : linuxDirectory.entry.size = 0 := by decide +kernel
    rw [holds_linuxDirectory.extract_eq hfirst rfl, hempty, hsize, if_neg (by decide), settled,
      if_neg (by decide)]
    rfl
  obtain ⟨entry, hentry, hregular, -, hd'⟩ :=
    h _ "linux" "amd64" "agent" [] _ sound_linuxDirectory rfl hextract
  rw [holds_linuxDirectory.contents_eq] at hentry
  have hdata : ∀ m ∈ [linuxDirectory, linuxAgent], m.entry.IsRegular → m.entry.data ≠ [] := by
    decide +kernel
  obtain ⟨m, hm, rfl⟩ := List.mem_map.1 hentry
  simp only [List.nil_append, List.cons.injEq, and_true] at hd'
  exact hdata m hm hregular (congrArg TemporaryFile.content hd').symm

end Directory

end RemoteAgent.Bundle
