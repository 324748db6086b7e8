import RemoteAgent.Proofs.Tar.Reading

/-! # Archives as they are written

A member of an archive is written as records: those that describe it, each kind at most once, and
its own. All members of an archive are found that way when it is read, whatever follows them.
-/

namespace RemoteAgent.Tar

/-- A header and what is written after it: the rest of the map of a sparse file, the data, and what
fills the last block. -/
structure Record where
  header : Block
  places : List Block
  data : List UInt8
  filler : List UInt8
  deriving DecidableEq, Repr

namespace Record

def bytes (r : Record) : List UInt8 :=
  r.header ++ (r.places.flatten ++ (r.data ++ r.filler))

/-- The data is as long as the header says, or as what is known about it does. -/
structure IsWhole (r : Record) (d : Described) : Prop where
  length_header : r.header.length = blockSize
  hasChecksum : r.header.hasChecksum = true
  dataSize : d.dataSize? r.header = some r.data.length
  length_filled : (r.data ++ r.filler).length =
    (r.data.length + blockSize - 1) / blockSize * blockSize

instance (r : Record) (d : Described) : Decidable (r.IsWhole d) :=
  decidable_of_iff
    (r.header.length = blockSize ∧ r.header.hasChecksum = true ∧
      d.dataSize? r.header = some r.data.length ∧ (r.data ++ r.filler).length =
        (r.data.length + blockSize - 1) / blockSize * blockSize)
    ⟨fun ⟨hheader, hsum, hsize, hfilled⟩ => ⟨hheader, hsum, hsize, hfilled⟩,
      fun h => ⟨h.length_header, h.hasChecksum, h.dataSize, h.length_filled⟩⟩

/-- The map of a sparse file, in its header and in the blocks after it. -/
def layout? (r : Record) : Option Layout := do
  let l ← Layout.addAll r.data.length 4 ⟨[], 0, r.data.length⟩ (r.header.drop 386)
  r.places.foldlM (fun l b => l.addAll r.data.length 21 b) l

/-- How the data is spread over the file. -/
inductive Spreads (r : Record) : List Piece → Prop where

  | plain : r.header.kind ≠ sparseKind → r.places = [] → Spreads r [.data r.data.length]

  | sparse {l : Layout} : r.header.kind = sparseKind → r.header.isGnu = true →
      GoOn (r.header.getD 482 0 = 1) r.places → r.layout? = some l →
      r.header.realSize? = some l.reached → l.remaining = 0 → Spreads r l.pieces.reverse

variable {r : Record} {d d' : Described} {pieces : List Piece} {s : Gzip.Decompressed}
  {position : Nat}

theorem fits_of_layout? {l : Layout} (h : r.layout? = some l) : l.Fits r.data.length := by
  obtain ⟨l₁, hfirst, hrest⟩ := Option.bind_eq_some_iff.1 h
  have hstart : Layout.Fits r.data.length ⟨[], 0, r.data.length⟩ := ⟨rfl, Nat.zero_add _⟩
  exact foldlM_induction (fun _ _ _ hl h => hl.addAll h) (hstart.addAll hfirst) hrest

theorem Spreads.stored (h : r.Spreads pieces) :
    (pieces.map Piece.stored).sum = r.data.length := by
  cases h with
  | plain => simp [Piece.stored]
  | sparse _ _ _ hl _ hused =>
    have hstored := (fits_of_layout? hl).stored
    rw [hused] at hstored
    simpa using hstored

theorem Spreads.expand_eq (h : r.Spreads pieces) (hplain : r.header.kind ≠ sparseKind) :
    expand pieces r.data = r.data := by
  cases h with
  | plain => exact expand_data r.data
  | sparse hsparse => exact absurd hsparse hplain

/-- A sparse file is as long as its header says. -/
theorem Spreads.statedSize (h : r.Spreads pieces) (hsparse : r.header.kind = sparseKind) :
    r.header.statedSize? = some (expand pieces r.data).length := by
  rw [length_expand (Nat.le_of_eq h.stored), Block.statedSize?, if_pos hsparse]
  cases h with
  | plain hplain => exact absurd hsparse hplain
  | sparse _ _ _ hl hreal =>
    rw [hreal, ← (fits_of_layout? hl).reached]
    simp

theorem Spreads.pieces?_eq (h : r.Spreads pieces) (hat : StandsAt s position r.places.flatten) :
    pieces? s r.header r.data.length position =
      some (position + blockSize * r.places.length, pieces) := by
  unfold pieces?
  cases h with
  | plain hplain hplaces => rw [if_neg hplain, hplaces]; rfl
  | @sparse l hsparse hgnu hgo hl hreal hused =>
    obtain ⟨l₁, hfirst, hrest⟩ := Option.bind_eq_some_iff.1 hl
    have hfuel : r.places.length ≤ s.bytes.size / blockSize + 1 := by
      have hle := hat.le_size
      rw [hgo.length_flatten] at hle
      simp only [blockSize] at hle ⊢
      omega
    rw [if_pos hsparse, sparsePieces?]
    simp only [hgnu, hfirst, Layout.continued_eq hgo hat hfuel hrest, hreal, hused, Bool.not_true,
      Bool.false_eq_true, if_false, Option.bind_eq_bind, Option.bind_some, and_self, if_true]

theorem isZero_of_hasChecksum {b : Block} (h : b.hasChecksum = true) : b.isZero = false := by
  rw [← Bool.not_eq_true]
  intro hzero
  have hnone : untilZero (b.field 148 8) = [] := by
    have hfield : ∀ c ∈ b.field 148 8, c = 0 := fun c hc =>
      of_decide_eq_true
        (List.all_eq_true.1 hzero c (List.mem_of_mem_drop (List.mem_of_mem_take hc)))
    unfold untilZero
    cases hcases : b.field 148 8 with
    | nil => rfl
    | cons c cs => simp [hfield c (by simp [hcases])]
  have hoctal : octal? (b.field 148 8) = none := by
    rw [octal?, hnone]
    rfl
  simp [Block.hasChecksum, hoctal] at h

theorem IsWhole.headerAt (h : r.IsWhole d) (hat : StandsAt s position r.bytes)
    (hlimit : s.bytes.size < Numeral.wordLimit) :
    HeaderAt s position d r.header r.data.length where
  block := hat.left.blockAt_eq h.length_header
  isZero := isZero_of_hasChecksum h.hasChecksum
  hasChecksum := h.hasChecksum
  dataSize := h.dataSize
  limit := by
    have hle := hat.le_size
    have hfilled := h.length_filled
    simp only [bytes, List.length_append, h.length_header] at hle hfilled
    unfold afterData
    omega

/-- A record that describes the next one is read in one step. -/
theorem IsWhole.description_step (h : r.IsWhole d) (hat : StandsAt s position r.bytes)
    (hlimit : s.bytes.size < Numeral.wordLimit) (hdescription : r.header.isDescription = true)
    (hplaces : r.places = []) (hnote : d.note? r.header.kind r.data = some d') :
    Step s position d none (position + r.bytes.length) d' := by
  have hfilled := h.length_filled
  have hnext : position + r.bytes.length = afterData position r.data.length := by
    simp only [bytes, hplaces, List.flatten_nil, List.length_append, List.length_nil,
      h.length_header, afterData] at hfilled ⊢
    omega
  have hdata : StandsAt s (position + blockSize) r.data := by
    have hrest := hat.right.right.left
    rwa [h.length_header, hplaces] at hrest
  have hstored : ([.data r.data.length].map Piece.stored).sum ≤ r.data.length := by
    simp [Piece.stored]
  rw [hnext]
  refine .description (h.headerAt hat hlimit) hdescription ?_ hnote
  rw [assemble_eq hdata hstored, expand_data]
  rfl

theorem Spreads.length_places (h : r.Spreads pieces) :
    r.places.flatten.length = blockSize * r.places.length := by
  cases h with
  | plain _ hplaces => rw [hplaces]; rfl
  | sparse _ _ hgo => exact hgo.length_flatten

/-- The size that a header states itself can be read. -/
theorem IsWhole.statedSize (h : r.IsWhole d) (hspreads : r.Spreads pieces) :
    r.header.statedSize? = some (r.header.statedSize?.getD 0) := by
  by_cases hsparse : r.header.kind = sparseKind
  · rw [hspreads.statedSize hsparse]
    rfl
  · obtain ⟨size, hsize, -⟩ := Option.bind_eq_some_iff.1 h.dataSize
    rw [Block.statedSize?, if_neg hsparse, hsize]
    rfl

/-- Any other record is an entry with all of its data. -/
theorem IsWhole.entry_step (h : r.IsWhole d) (hat : StandsAt s position r.bytes)
    (hlimit : s.bytes.size < Numeral.wordLimit) (hentry : r.header.isDescription = false)
    (hspreads : r.Spreads pieces) {stated : Nat} (hstated : r.header.statedSize? = some stated) :
    Step s position d
      (some {
        name := d.name r.header, kind := r.header.kind, size := stated,
        data := expand pieces r.data, readable := true })
      (position + r.bytes.length) {} := by
  have hplaces := hspreads.length_places
  have hfilled := h.length_filled
  have hmap : StandsAt s (position + blockSize) r.places.flatten := by
    have hrest := hat.right.left
    rwa [h.length_header] at hrest
  have hdata : StandsAt s (position + blockSize + blockSize * r.places.length) r.data := by
    have hrest := hat.right.right.left
    rwa [h.length_header, hplaces] at hrest
  have hassemble := assemble_eq hdata (Nat.le_of_eq hspreads.stored) .empty
  have hnext : position + r.bytes.length = afterData position r.data.length +
      (position + blockSize + blockSize * r.places.length - (position + blockSize)) := by
    simp only [bytes, List.length_append, h.length_header, hplaces, afterData] at hfilled ⊢
    omega
  have hstep := Step.entry (h.headerAt hat hlimit) hentry hstated (hspreads.pieces?_eq hmap)
  rw [hassemble] at hstep
  rwa [hnext]

end Record

/-- What records say about the next entry. -/
def Described.ofRecords (rs : List Record) : Described where
  longName := (rs.find? (·.header.kind = longNameKind)).map (·.data)
  longLink := (rs.find? (·.header.kind = longLinkKind)).map (·.data)
  records := (rs.find? (·.header.kind = recordsKind)).map (·.data)

/-- Each of these records is whole, after those before it. -/
def AreWhole (before : List Record) : List Record → Prop
  | [] => True
  | r :: rs => r.IsWhole (.ofRecords before) ∧ AreWhole (before ++ [r]) rs

instance AreWhole.decidable : ∀ before rs, Decidable (AreWhole before rs)
  | _, [] => .isTrue trivial
  | before, r :: rs =>
    have := AreWhole.decidable (before ++ [r]) rs
    inferInstanceAs (Decidable (r.IsWhole (.ofRecords before) ∧ AreWhole (before ++ [r]) rs))

theorem AreWhole.last {before rs : List Record} {r : Record} (h : AreWhole before (rs ++ [r])) :
    r.IsWhole (.ofRecords (before ++ rs)) := by
  induction rs generalizing before with
  | nil =>
    rw [List.append_nil]
    exact h.1
  | cons r' rs ih =>
    rw [List.append_cons]
    exact ih h.2

/-- A member of an archive: the records that describe it, its own, and how its data is spread. -/
structure Member where
  descriptions : List Record
  record : Record
  pieces : List Piece
  deriving DecidableEq, Repr

namespace Member

def bytes (m : Member) : List UInt8 :=
  m.descriptions.flatMap Record.bytes ++ m.record.bytes

/-- What is in the file: the stored data, with zeros in the holes. -/
def content (m : Member) : List UInt8 :=
  expand m.pieces m.record.data

def name (m : Member) : List UInt8 :=
  (Described.ofRecords m.descriptions).name m.record.header

/-- Each record is whole, nothing is said twice, and the data is spread as the headers say. -/
structure IsWellFormed (m : Member) : Prop where
  whole : AreWhole [] (m.descriptions ++ [m.record])
  descriptions : ∀ r ∈ m.descriptions, r.header.isDescription = true ∧ r.places = []
  distinct : (m.descriptions.map (·.header.kind)).Nodup
  entry : m.record.header.isDescription = false
  spreads : m.record.Spreads m.pieces

/-- A member whose data is written as it is. -/
def plain (descriptions : List Record) (record : Record) : Member where
  descriptions := descriptions
  record := record
  pieces := [.data record.data.length]

theorem isWellFormed_plain {descriptions : List Record} {record : Record}
    (h : AreWhole [] (descriptions ++ [record]) ∧
      (∀ r ∈ descriptions, r.header.isDescription = true ∧ r.places = []) ∧
      (descriptions.map (·.header.kind)).Nodup ∧ record.header.isDescription = false ∧
      record.header.kind ≠ sparseKind ∧ record.places = []) :
    (plain descriptions record).IsWellFormed := by
  obtain ⟨hwhole, hdescriptions, hdistinct, hentry, hkind, hplaces⟩ := h
  exact ⟨hwhole, hdescriptions, hdistinct, hentry, .plain hkind hplaces⟩

end Member

theorem Described.note?_ofRecords {before : List Record} {r : Record}
    (hdescription : r.header.isDescription = true)
    (hdistinct : ((before ++ [r]).map (·.header.kind)).Nodup) :
    (Described.ofRecords before).note? r.header.kind r.data =
      some (.ofRecords (before ++ [r])) := by
  have hnew : before.find? (·.header.kind = r.header.kind) = none := by
    rw [List.map_append, List.map_singleton, List.nodup_append] at hdistinct
    simp only [List.find?_eq_none, decide_eq_true_eq]
    exact fun r' hr' => hdistinct.2.2 _ (List.mem_map_of_mem hr') _ List.mem_cons_self
  have hkind : r.header.kind = longNameKind ∨ r.header.kind = longLinkKind ∨
      r.header.kind = recordsKind := by
    simpa [Block.isDescription] using (Bool.and_eq_true_iff.1 hdescription).2
  have hname : longNameKind ≠ longLinkKind ∧ longNameKind ≠ recordsKind := by decide
  have hlink : longLinkKind ≠ recordsKind := by decide
  rcases hkind with hkind | hkind | hkind <;> rw [hkind] at hnew ⊢ <;>
    simp [note?, ofRecords, hnew, hkind, List.find?_append, hname, hlink, hname.1.symm,
      hname.2.symm, hlink.symm]

variable {s : Gzip.Decompressed} {position : Nat} {es : List Entry}

/-- Reading passes over the records that describe a member and knows what they say. -/
theorem reaches_descriptions {before rs : List Record} {last : Record}
    (hwhole : AreWhole before (rs ++ [last]))
    (hdescriptions : ∀ r ∈ rs, r.header.isDescription = true ∧ r.places = [])
    (hdistinct : ((before ++ rs).map (·.header.kind)).Nodup)
    (hat : StandsAt s position (rs.flatMap Record.bytes))
    (hlimit : s.bytes.size < Numeral.wordLimit)
    (h : Reaches s es position (.ofRecords before)) :
    Reaches s es (position + (rs.flatMap Record.bytes).length) (.ofRecords (before ++ rs)) := by
  induction rs generalizing before position with
  | nil => rwa [List.append_nil]
  | cons r rs ih =>
    obtain ⟨⟨hdescription, hplaces⟩, hrest⟩ := List.forall_mem_cons.1 hdescriptions
    rw [List.append_cons] at hdistinct ⊢
    have hdistinct' : ((before ++ [r]).map (·.header.kind)).Nodup := by
      rw [List.map_append] at hdistinct
      exact (List.nodup_append.1 hdistinct).1
    rw [List.flatMap_cons] at hat
    have hstep := hwhole.1.description_step hat.left hlimit hdescription hplaces
      (Described.note?_ofRecords hdescription hdistinct')
    have hreached := h.step hstep
    rw [Option.toList_none, List.append_nil] at hreached
    have hpassed := ih hwhole.2 hrest hdistinct hat.right hreached
    rwa [Nat.add_assoc, ← List.length_append, ← List.flatMap_cons] at hpassed

namespace Member

/-- The entry that is found for a member. -/
def entry (m : Member) : Entry where
  name := m.name
  kind := m.record.header.kind
  size := m.record.header.statedSize?.getD 0
  data := m.content
  readable := true

variable {m : Member}

theorem IsWellFormed.reaches (hm : m.IsWellFormed) (hat : StandsAt s position m.bytes)
    (hlimit : s.bytes.size < Numeral.wordLimit) (h : Reaches s es position {}) :
    Reaches s (es ++ [m.entry]) (position + m.bytes.length) {} := by
  have hwhole := hm.whole.last
  have hdescribed := reaches_descriptions hm.whole hm.descriptions hm.distinct hat.left hlimit h
  have hstep := hwhole.entry_step hat.right hlimit hm.entry hm.spreads
    (hwhole.statedSize hm.spreads)
  have hreached := hdescribed.step hstep
  rwa [Nat.add_assoc, ← List.length_append] at hreached

/-- A member is as long as its own header says if nothing else is recorded about its size. -/
theorem IsWellFormed.statedSize (hm : m.IsWellFormed)
    (hrecorded : (Described.ofRecords m.descriptions).records.bind recordedSize? = none) :
    m.record.header.statedSize? = some m.content.length := by
  by_cases hsparse : m.record.header.kind = sparseKind
  · exact hm.spreads.statedSize hsparse
  · have hsize := hm.whole.last.dataSize
    rw [List.nil_append] at hsize
    obtain ⟨size, hstated, hdata⟩ := Option.bind_eq_some_iff.1 hsize
    rw [hrecorded] at hdata
    cases hdata
    rw [Block.statedSize?, if_neg hsparse, hstated, content, hm.spreads.expand_eq hsparse]

end Member

/-- All members of an archive are found in their order. -/
theorem reaches_members {members : List Member} (hformed : ∀ m ∈ members, m.IsWellFormed)
    (hat : StandsAt s position (members.flatMap Member.bytes))
    (hlimit : s.bytes.size < Numeral.wordLimit) (h : Reaches s es position {}) :
    Reaches s (es ++ members.map Member.entry)
      (position + (members.flatMap Member.bytes).length) {} := by
  induction members generalizing es position with
  | nil => simpa using h
  | cons m members ih =>
    obtain ⟨hm, hmembers⟩ := List.forall_mem_cons.1 hformed
    rw [List.flatMap_cons] at hat
    have hrest := ih hmembers hat.right (hm.reaches hat.left hlimit h)
    rw [Nat.add_assoc, ← List.length_append, ← List.flatMap_cons] at hrest
    simpa using hrest

theorem isPrefix_entries {members : List Member} (hformed : ∀ m ∈ members, m.IsWellFormed)
    (hat : StandsAt s 0 (members.flatMap Member.bytes))
    (hlimit : s.bytes.size < Numeral.wordLimit) :
    members.map Member.entry <+: (contents s).entries :=
  (reaches_members hformed hat hlimit .start).isPrefix

/-- An archive that is written with its end is read as it is written. -/
theorem contents_eq {members : List Member} (hformed : ∀ m ∈ members, m.IsWellFormed)
    (hat : StandsAt s 0 (members.flatMap Member.bytes ++ List.replicate blockSize 0))
    (hlimit : s.bytes.size < Numeral.wordLimit) :
    contents s = ⟨members.map Member.entry, true⟩ :=
  (reaches_members hformed hat.left hlimit .start).contents_eq
    (.zeros (hat.right.blockAt_eq List.length_replicate) (by simp [Block.isZero]))

end RemoteAgent.Tar
