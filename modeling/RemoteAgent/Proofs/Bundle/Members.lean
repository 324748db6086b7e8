import RemoteAgent.Proofs.Bundle.Selection
import RemoteAgent.Proofs.Gzip.Stored
import RemoteAgent.Proofs.Tar.Members

/-! # Extracting from archives as they are written

Of a bundle whose archive is written as it should be, the first member that bears the platform's
name decides, whatever its dialect and whatever follows it: its content is extracted if it is as
long as its own header says. A record about its size is what can make the two differ.
-/

namespace RemoteAgent.Bundle

open Tar

variable {bundle : ByteArray} {members : List Member} {rest : List UInt8} {m : Member}
  {os arch file : String} {d : TemporaryDirectory}

/-- The archive in a bundle begins with these members. -/
structure Holds (bundle : ByteArray) (members : List Member) (rest : List UInt8) : Prop where
  archive : (Gzip.decompress bundle).bytes.data.toList = members.flatMap Member.bytes ++ rest
  limit : (Gzip.decompress bundle).bytes.size < Numeral.wordLimit
  wellFormed : ∀ m ∈ members, m.IsWellFormed

theorem Holds.standsAt (h : Holds bundle members rest) :
    StandsAt (Gzip.decompress bundle) 0 (members.flatMap Member.bytes) :=
  ⟨[], rest, h.archive, rfl⟩

theorem Holds.isFirstBearing (h : Holds bundle members rest) {name : String}
    (hfirst : members.find? (bears ·.entry name) = some m) :
    IsFirstBearing (contents (Gzip.decompress bundle)) name m.entry := by
  obtain ⟨after, hentries⟩ := isPrefix_entries h.wellFormed h.standsAt h.limit
  rw [isFirstBearing_iff, ← hentries, List.find?_append, List.find?_map, Function.comp_def, hfirst]
  rfl

theorem Holds.isWellFormed (h : Holds bundle members rest) {name : String}
    (hfirst : members.find? (bears ·.entry name) = some m) : m.IsWellFormed :=
  h.wellFormed m (List.mem_of_find?_eq_some hfirst)

theorem Holds.extract_eq (h : Holds bundle members rest)
    (hfirst : members.find? (bears ·.entry (os ++ "_" ++ arch)) = some m)
    (hd : d.find? file = none) :
    extract (.ok bundle) os arch file d =
      if m.content.length ≠ m.entry.size then
        (.error (.truncated m.entry.size m.content.length), d)
      else settled os file d (.ok m.content) := by
  have hextract := extractEntries_of_first hd (h.isFirstBearing hfirst)
  rwa [if_neg (by simp [Member.entry])] at hextract

/-- The first member that bears the platform's name is extracted whole if it is as long as its own
header states, as it is when its size is not recorded elsewhere. If it is not as long as that, it
counts as cut short, although all of it is there. -/
theorem extract_wholeMember (h : Holds bundle members rest)
    (hfirst : members.find? (bears ·.entry (os ++ "_" ++ arch)) = some m)
    (hd : d.find? file = none) :
    (m.record.header.statedSize? = some m.content.length →
      extract (.ok bundle) os arch file d =
        (.ok (), d ++ [⟨file, m.content, if os = "windows" then 0o600 else 0o700⟩])) ∧
    ((Described.ofRecords m.descriptions).records.bind recordedSize? = none →
      m.record.header.statedSize? = some m.content.length) ∧
    ∃ stated, m.record.header.statedSize? = some stated ∧ (stated ≠ m.content.length →
      extract (.ok bundle) os arch file d =
        (.error (.truncated stated m.content.length), d)) := by
  have hm := h.isWellFormed hfirst
  have hextract := h.extract_eq hfirst hd
  refine ⟨fun hstated => ?_, hm.statedSize, m.entry.size, hm.whole.last.statedSize hm.spreads,
    fun hshort => ?_⟩
  · have hsize : m.entry.size = m.content.length := by simp [Member.entry, hstated]
    rw [hextract, if_neg (not_not_intro hsize.symm)]
    rfl
  · rw [hextract, if_pos (Ne.symm hshort)]

section Recorded

/-- Text in a field of so many bytes. -/
def field (size : Nat) (text : String) : List UInt8 :=
  Text.encode text ++ List.replicate (size - (Text.encode text).length) 0

/-- A header of the standard form; the size and the checksum are given in octal digits. -/
def header (name : String) (kind : UInt8) (size checksum : String) : Block :=
  field 124 name ++ field 24 size ++ field 8 checksum ++ [kind] ++ field 100 "" ++
    field 6 "ustar" ++ field 249 "00"

/-- Data after a header. -/
def record (header : Block) (data : String) : Record where
  header := header
  places := []
  data := Text.encode data
  filler := List.replicate (afterData 0 (Text.encode data).length - blockSize -
    (Text.encode data).length) 0

/-- An archive ends with two blocks of zeros. -/
def ending : List UInt8 :=
  List.replicate blockSize 0 ++ List.replicate blockSize 0

/-- A bundle with these members and no others. -/
def bundleOf (members : List Member) : ByteArray :=
  Gzip.stored (members.flatMap Member.bytes ++ ending)

theorem holds_bundleOf (hsize : (members.flatMap Member.bytes ++ ending).length < 0x10000)
    (hformed : ∀ m ∈ members, m.IsWellFormed) : Holds (bundleOf members) members ending := by
  have hcontent := Gzip.decompress_stored hsize
  refine ⟨by rw [bundleOf, hcontent], ?_, hformed⟩
  rw [bundleOf, hcontent]
  exact Nat.lt_trans hsize (by decide)

theorem Holds.contents_eq (h : Holds bundle members ending) :
    contents (Gzip.decompress bundle) = ⟨members.map Member.entry, true⟩ := by
  refine Tar.contents_eq h.wellFormed ⟨[], List.replicate blockSize 0, ?_, rfl⟩ h.limit
  rw [h.archive, ending, List.nil_append, List.append_assoc]

def agentsDirectory : Member :=
  .plain [] (record (header "agents/" 0x35 "0" "3245") "")

/-- An agent whose path and size are recorded, the size as in its own header. -/
def pathedAgent : Member :=
  .plain [record (header "PaxHeader" 0x78 "41" "3736") "22 path=./linux_amd64\n11 size=11\n"]
    (record (header "agent" 0x30 "13" "3062") "linux agent")

/-- An agent whose size is recorded, and zero in its own header. -/
def sizedAgent : Member :=
  .plain [record (header "PaxHeader" 0x78 "12" "3734") "10 size=5\n"]
    (record (header "linux_amd64" 0x30 "0" "4032") "agent")

theorem isWellFormed_agentsDirectory : agentsDirectory.IsWellFormed :=
  Member.isWellFormed_plain (by decide +kernel)

theorem isWellFormed_pathedAgent : pathedAgent.IsWellFormed :=
  Member.isWellFormed_plain (by decide +kernel)

theorem isWellFormed_sizedAgent : sizedAgent.IsWellFormed :=
  Member.isWellFormed_plain (by decide +kernel)

theorem holds_pathedAgent :
    Holds (bundleOf [agentsDirectory, pathedAgent]) [agentsDirectory, pathedAgent] ending :=
  holds_bundleOf (by decide +kernel) (by
    simp [isWellFormed_agentsDirectory, isWellFormed_pathedAgent])

theorem extract_wholeMember_pathed :
    Holds (bundleOf [agentsDirectory, pathedAgent]) [agentsDirectory, pathedAgent] ending ∧
      [agentsDirectory, pathedAgent].find? (bears ·.entry ("linux" ++ "_" ++ "amd64")) =
        some pathedAgent ∧
      TemporaryDirectory.find? [] "agent" = none ∧
      extract (.ok (bundleOf [agentsDirectory, pathedAgent])) "linux" "amd64" "agent" [] =
        (.ok (), [⟨"agent", Text.encode "linux agent", 0o700⟩]) := by
  have hfirst : [agentsDirectory, pathedAgent].find?
      (bears ·.entry ("linux" ++ "_" ++ "amd64")) = some pathedAgent := by decide +kernel
  have hfresh : TemporaryDirectory.find? [] "agent" = none := rfl
  refine ⟨holds_pathedAgent, hfirst, hfresh, ?_⟩
  have hextract := extract_wholeMember holds_pathedAgent hfirst hfresh
  have hstated : pathedAgent.record.header.statedSize? = some pathedAgent.content.length := by
    decide +kernel
  have hcontent : pathedAgent.content = Text.encode "linux agent" := by decide +kernel
  rw [hextract.1 hstated, hcontent, if_neg (by decide)]
  rfl

theorem holds_sizedAgent : Holds (bundleOf [sizedAgent]) [sizedAgent] ending :=
  holds_bundleOf (by decide +kernel) (by simp [isWellFormed_sizedAgent])

theorem sound_sizedAgent : (Gzip.decompress (bundleOf [sizedAgent])).sound = true := by
  rw [bundleOf, Gzip.decompress_stored (by decide +kernel)]

/-- A regular file that is wholly there is not extracted if only a record says how long it is. -/
theorem not_extract_recordedSize :
    ¬ ∀ (bundle : ByteArray) (members : List Member) (m : Member) (os arch file : String)
      (d : TemporaryDirectory), (Gzip.decompress bundle).sound = true →
      Holds bundle members ending →
      members.find? (bears ·.entry (os ++ "_" ++ arch)) = some m → m.record.header.kind = 0x30 →
      d.find? file = none → (extract (.ok bundle) os arch file d).1 = .ok () := by
  intro h
  have hfirst : [sizedAgent].find? (bears ·.entry ("linux" ++ "_" ++ "amd64")) =
      some sizedAgent := by decide +kernel
  have hok := h _ _ _ "linux" "amd64" "agent" [] sound_sizedAgent holds_sizedAgent hfirst
    (by decide +kernel) rfl
  have hshort : sizedAgent.content.length ≠ sizedAgent.entry.size := by decide +kernel
  rw [holds_sizedAgent.extract_eq hfirst rfl, if_pos hshort] at hok
  cases hok

end Recorded

end RemoteAgent.Bundle
