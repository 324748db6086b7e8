import RemoteAgent.Bundle.Extract
import RemoteAgent.Proofs.Bundle.TemporaryDirectory
import RemoteAgent.Proofs.Tar.Archive

/-! # What extraction leaves

An extraction that succeeds leaves one new file with the data of the first entry that bears the
platform's name, all of it. Whether it succeeds does not depend on the other temporary files.
-/

namespace RemoteAgent.Bundle

def IsFirstBearing (contents : Tar.Contents) (name : String) (entry : Tar.Entry) : Prop :=
  ∃ before after, contents.entries = before ++ entry :: after ∧ bears entry name = true ∧
    ∀ e ∈ before, bears e name = false

theorem isFirstBearing_iff {contents : Tar.Contents} {name : String} {entry : Tar.Entry} :
    IsFirstBearing contents name entry ↔
      contents.entries.find? (bears · name) = some entry := by
  rw [List.find?_eq_some_iff_append]
  constructor
  · rintro ⟨before, after, he, hb, hn⟩
    exact ⟨hb, before, after, he, by simpa using hn⟩
  · rintro ⟨hb, before, after, he, hn⟩
    exact ⟨before, after, he, hb, by simpa using hn⟩

section Entries

variable {contents : Tar.Contents} {os arch file : String} {d : TemporaryDirectory}

/-- What is extracted where nothing is refused. -/
theorem extractEntries_unrefused : extractEntries contents os arch file d =
    match contents.entries.find? (bears · (entryName os arch)) with
    | none =>
      if contents.sound then (.error (.unsupportedPlatform os arch), d)
      else (.error (.damaged .archive), d)
    | some entry =>
      let d := (d.create file).write file entry.data
      if !entry.readable then (.error (.damaged .compression), d.remove file)
      else if entry.data.length ≠ entry.size then
        (.error (.truncated entry.size entry.data.length), d.remove file)
      else if os = "windows" then (.ok (), d)
      else (.ok (), d.setMode file executableMode) := rfl

theorem extractEntries_outcome (d' : TemporaryDirectory) :
    (extractEntries contents os arch file d).1 = (extractEntries contents os arch file d').1 := by
  rw [extractEntries_unrefused, extractEntries_unrefused]
  split
  · split <;> rfl
  · dsimp only
    split
    · rfl
    · split
      · rfl
      · split <;> rfl

theorem find?_extractEntries (h : (extractEntries contents os arch file d).1 = .ok ())
    (hd : d.find? file = none) :
    ∃ entry extracted, IsFirstBearing contents (entryName os arch) entry ∧
      entry.data.length = entry.size ∧
      (extractEntries contents os arch file d).2.find? file = some extracted ∧
      extracted.content = entry.data := by
  rw [extractEntries_unrefused] at h ⊢
  split at h
  · split at h <;> cases h
  next entry he =>
    have hw : ((d.create file).write file entry.data).find? file =
        some { name := file, content := entry.data, mode := TemporaryDirectory.newMode } := by
      rw [TemporaryDirectory.find?_write, TemporaryDirectory.find?_create hd]
      rfl
    dsimp only at h ⊢
    split at h
    · cases h
    next hr =>
      split at h
      · cases h
      next hl =>
        rw [if_neg hr, if_neg hl]
        split
        · exact ⟨entry, _, isFirstBearing_iff.2 he, Decidable.not_not.1 hl, hw, rfl⟩
        · have hm : (((d.create file).write file entry.data).setMode file
              executableMode).find? file = _ := TemporaryDirectory.find?_setMode executableMode
          rw [hw, Option.map_some] at hm
          exact ⟨entry, _, isFirstBearing_iff.2 he, Decidable.not_not.1 hl, hm, rfl⟩

end Entries

variable {bundle : Except IoError ByteArray} {os arch file : String} {d : TemporaryDirectory}

theorem extract_outcome (d' : TemporaryDirectory) :
    (extract bundle os arch file d).1 = (extract bundle os arch file d').1 := by
  unfold extract
  split
  · rfl
  · exact extractEntries_outcome d'

/-- What is extracted is the whole of the first entry that bears the platform's name. -/
theorem find?_extract (h : (extract bundle os arch file d).1 = .ok ()) (hd : d.find? file = none) :
    ∃ bytes entry extracted, bundle = .ok bytes ∧
      IsFirstBearing (Tar.contents (Gzip.decompress bytes)) (entryName os arch) entry ∧
      entry.data.length = entry.size ∧
      (extract bundle os arch file d).2.find? file = some extracted ∧
      extracted.content = entry.data := by
  unfold extract at h ⊢
  split at h
  · cases h
  next bytes =>
    obtain ⟨entry, extracted, hf⟩ := find?_extractEntries h hd
    exact ⟨bytes, entry, extracted, rfl, hf⟩

section EmptyAgent

def emptyAgentHeader : Tar.Block :=
  Text.encode "windows_amd64" ++ List.replicate 111 0 ++ Text.encode "0" ++ List.replicate 23 0 ++
    Text.encode "3066" ++ List.replicate 360 0

/-- A bundle with this agent only. It is stored, not compressed, and has no trailer. -/
def emptyAgentBundle : ByteArray :=
  ⟨([0x1F, 0x8B, 8, 0, 0, 0, 0, 0, 0, 0, 1, 0, 2, 0xFF, 0xFD] ++ emptyAgentHeader).toArray⟩

theorem length_emptyAgentHeader : emptyAgentHeader.length = 512 := by decide +kernel

set_option maxRecDepth 20000 in
theorem inflate_emptyAgentBundle :
    Gzip.inflate emptyAgentBundle 10 = (.empty ++ emptyAgentBundle.extract 15 527, .ok 527) := rfl

theorem decompress_emptyAgentBundle :
    Gzip.decompress emptyAgentBundle = ⟨⟨emptyAgentHeader.toArray⟩, false⟩ := by
  have hheader : Gzip.afterHeader? emptyAgentBundle = some 10 := by decide +kernel
  have hstored :
      ByteArray.empty ++ emptyAgentBundle.extract 15 527 = ⟨emptyAgentHeader.toArray⟩ := by
    rw [ByteArray.empty_append, ByteArray.ext_iff]
    simp [ByteArray.data_extract, emptyAgentBundle, List.take_of_length_le,
      length_emptyAgentHeader]
  have htrailer : Gzip.littleEndian? emptyAgentBundle 4 527 = none := by decide +kernel
  simp only [Gzip.decompress, hheader, inflate_emptyAgentBundle, hstored, Gzip.trailerFits,
    htrailer]
  rfl

theorem contents_emptyAgentBundle :
    Tar.contents (Gzip.decompress emptyAgentBundle) =
      ⟨[⟨Text.encode "windows_amd64", 0, 0, [], true⟩], false⟩ := by
  rw [decompress_emptyAgentBundle]
  have hsize : (⟨emptyAgentHeader.toArray⟩ : ByteArray).size = 512 := by
    simp [ByteArray.size, length_emptyAgentHeader]
  have hfirst : Tar.blockAt ⟨⟨emptyAgentHeader.toArray⟩, false⟩ 0 = .block emptyAgentHeader := by
    rw [Tar.blockAt, if_pos (by rw [hsize]; decide)]
    simp [ByteArray.data_extract, Tar.blockSize, List.take_of_length_le, length_emptyAgentHeader]
  have hnext : Tar.blockAt ⟨⟨emptyAgentHeader.toArray⟩, false⟩ 512 = .failure := by
    rw [Tar.blockAt, if_neg (by rw [hsize]; decide), if_neg (by simp)]
  have hdata : Tar.assemble ⟨⟨emptyAgentHeader.toArray⟩, false⟩ 512 .empty [.data 0] =
      ([], true) := by
    simp [Tar.assemble, hsize]
  have hkind : Tar.Block.kind emptyAgentHeader = 0 := by decide +kernel
  have hname : Tar.Block.name emptyAgentHeader = Text.encode "windows_amd64" := by decide +kernel
  have hlength : Tar.Block.size? emptyAgentHeader = some 0 := by decide +kernel
  rw [Tar.contents, hsize, Tar.entriesFrom_plain hfirst (by decide +kernel) (by decide +kernel)
    hlength (by decide +kernel) (by decide +kernel) (by rw [hkind]; decide) (by decide), hkind,
    hname]
  simp only [Tar.blockSize, Tar.afterData, Nat.zero_add, hdata]
  rw [Tar.entriesFrom]
  simp only [hnext]
  rfl

theorem extract_emptyAgentBundle (file : String) (d : TemporaryDirectory) :
    (extract (.ok emptyAgentBundle) "windows" "amd64" file d).1 = .ok () := by
  have hbears : bears ⟨Text.encode "windows_amd64", 0, 0, [], true⟩
      (entryName "windows" "amd64") = true := by decide +kernel
  have hfound : [⟨Text.encode "windows_amd64", 0, 0, [], true⟩].find?
      (bears · (entryName "windows" "amd64")) =
      some ⟨Text.encode "windows_amd64", 0, 0, [], true⟩ := by
    rw [List.find?_cons, hbears]
  unfold extract
  dsimp only
  rw [contents_emptyAgentBundle]
  unfold extractEntries
  dsimp only
  rw [hfound]
  rfl

end EmptyAgent

end RemoteAgent.Bundle
