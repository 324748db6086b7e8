import Mathlib.Algebra.GroupWithZero.Nat
import RemoteAgent.Tar.Archive

/-! # Data and holes

The data of an entry is put together from what is stored of it, with zeros for the holes of a sparse
file. All of it is there if all that is stored stands in the archive.
-/

namespace RemoteAgent.Tar

variable {s : Gzip.Decompressed} {position : Nat} {bytes bytes' data : List UInt8}

/-- These bytes stand at a position of an archive. -/
def StandsAt (s : Gzip.Decompressed) (position : Nat) (bytes : List UInt8) : Prop :=
  ∃ before after, s.bytes.data.toList = before ++ bytes ++ after ∧ before.length = position

theorem StandsAt.left (h : StandsAt s position (bytes ++ bytes')) : StandsAt s position bytes := by
  obtain ⟨before, after, heq, hlength⟩ := h
  exact ⟨before, bytes' ++ after, by simpa using heq, hlength⟩

theorem StandsAt.right (h : StandsAt s position (bytes ++ bytes')) :
    StandsAt s (position + bytes.length) bytes' := by
  obtain ⟨before, after, heq, rfl⟩ := h
  exact ⟨before ++ bytes, after, by simpa using heq, by simp⟩

theorem StandsAt.le_size (h : StandsAt s position bytes) :
    position + bytes.length ≤ s.bytes.size := by
  obtain ⟨before, after, heq, rfl⟩ := h
  have hsize := congrArg List.length heq
  simp only [Array.length_toList, ByteArray.size_data, List.length_append] at hsize
  omega

theorem StandsAt.extract_eq (h : StandsAt s position bytes) :
    (s.bytes.extract position (position + bytes.length)).data.toList = bytes := by
  obtain ⟨before, after, heq, rfl⟩ := h
  simp [ByteArray.data_extract, heq]

theorem StandsAt.blockAt_eq {b : Block} (h : StandsAt s position b) (hb : b.length = blockSize) :
    blockAt s position = .block b := by
  have hle := h.le_size
  have heq := h.extract_eq
  rw [hb] at hle heq
  rw [blockAt, if_pos hle, heq]

theorem standsAt_extract (h : position ≤ s.bytes.size) (stop : Nat) :
    StandsAt s position (s.bytes.extract position stop).data.toList := by
  refine ⟨s.bytes.data.toList.take position,
    (s.bytes.data.toList.drop position).drop (stop - position), ?_, ?_⟩
  · rw [ByteArray.data_extract, Array.toList_extract, List.extract, List.append_assoc,
      List.take_append_drop, List.take_append_drop]
  · rw [List.length_take, Array.length_toList, ByteArray.size_data]
    exact Nat.min_eq_left h

namespace Piece

def length : Piece → Nat
  | .data n => n
  | .hole n => n

/-- How much of the data a piece takes. -/
def stored : Piece → Nat
  | .data n => n
  | .hole _ => 0

end Piece

/-- What pieces make of stored data. -/
def expand : List Piece → List UInt8 → List UInt8
  | [], _ => []
  | .data n :: pieces, bytes => bytes.take n ++ expand pieces (bytes.drop n)
  | .hole n :: pieces, bytes => List.replicate n 0 ++ expand pieces bytes

theorem expand_data (data : List UInt8) : expand [.data data.length] data = data := by
  simp [expand]

/-- Data that is not spread stands in the archive as it is, also if it is cut short. -/
theorem standsAt_assemble (h : position ≤ s.bytes.size) (n : Nat) :
    StandsAt s position (assemble s position .empty [.data n]).1 := by
  have hdata : (assemble s position .empty [.data n]).1 =
      (s.bytes.extract position (min (position + n) s.bytes.size)).data.toList := by
    rw [assemble]
    split <;> simp [assemble]
  rw [hdata]
  exact standsAt_extract h _

variable {pieces : List Piece}

theorem length_expand (h : (pieces.map Piece.stored).sum ≤ data.length) :
    (expand pieces data).length = (pieces.map Piece.length).sum := by
  induction pieces generalizing data with
  | nil => rfl
  | cons piece pieces ih =>
    rw [List.map_cons, List.sum_cons] at h ⊢
    cases piece with
    | data n =>
      have hrest := @ih (data.drop n) (by simp [Piece.stored] at h ⊢; omega)
      simp only [expand, List.length_append, hrest, List.length_take, Piece.length]
      simp only [Piece.stored] at h
      omega
    | hole n =>
      have hrest := @ih data (by simpa [Piece.stored] using h)
      simp [expand, hrest, Piece.length]

theorem assemble_eq (h : StandsAt s position data)
    (hstored : (pieces.map Piece.stored).sum ≤ data.length) (done : ByteArray) :
    assemble s position done pieces = (done.data.toList ++ expand pieces data, true) := by
  induction pieces generalizing position data done with
  | nil => simp [assemble, expand]
  | cons piece pieces ih =>
    rw [List.map_cons, List.sum_cons] at hstored
    cases piece with
    | data n =>
      simp only [Piece.stored] at hstored
      have hsplit : StandsAt s position (data.take n ++ data.drop n) := by
        rwa [List.take_append_drop]
      have htake : (data.take n).length = n := by
        rw [List.length_take]
        omega
      have hrest := hsplit.right
      have hextract := hsplit.left.extract_eq
      have hle := hsplit.left.le_size
      rw [htake] at hrest hextract hle
      have hdrop : (pieces.map Piece.stored).sum ≤ (data.drop n).length := by
        rw [List.length_drop]
        omega
      have hstop : min (position + n) s.bytes.size = position + n := Nat.min_eq_left hle
      have hdone : (done ++ s.bytes.extract position (position + n)).data.toList =
          done.data.toList ++ data.take n := by
        rw [ByteArray.data_append, Array.toList_append, hextract]
      rw [assemble, hstop, if_neg (by simp), ih hrest hdrop, hdone, expand, List.append_assoc]
    | hole n =>
      rw [assemble, ih h (by simpa [Piece.stored] using hstored)]
      simp [expand]

section Layouts

variable {size : Nat} {l l' : Layout}

/-- The pieces of a layout reach as far as it does, and take all of the data that is used. -/
structure Layout.Fits (size : Nat) (l : Layout) : Prop where
  reached : (l.pieces.map Piece.length).sum = l.reached
  stored : (l.pieces.map Piece.stored).sum + l.remaining = size

theorem Layout.Fits.add {place : List UInt8} (hl : l.Fits size) (h : l.add size place = some l') :
    l'.Fits size := by
  unfold Layout.add at h
  dsimp only at h
  split at h
  · cases h
    exact hl
  · obtain ⟨offset, hoffset, h⟩ := Option.bind_eq_some_iff.1 h
    obtain ⟨length, hlength, h⟩ := Option.bind_eq_some_iff.1 h
    split at h
    · cases h
    next =>
      split at h
      · cases h
      next horder =>
        split at h
        · cases h
        next hroom =>
          cases h
          have hreached := hl.reached
          have hstored := hl.stored
          refine ⟨?_, ?_⟩
          · split <;> simp [Piece.length] <;> omega
          · split <;> simp [Piece.stored] <;> omega

/-- What a step keeps, a run that does not fail keeps. -/
theorem foldlM_induction {α β : Type} {P : β → Prop} {f : β → α → Option β} {xs : List α} {b b' : β}
    (hstep : ∀ b x b', P b → f b x = some b' → P b') (hb : P b) (h : xs.foldlM f b = some b') :
    P b' := by
  induction xs generalizing b with
  | nil =>
    cases h
    exact hb
  | cons x xs ih =>
    rw [List.foldlM_cons] at h
    obtain ⟨b₁, hfirst, hrest⟩ := Option.bind_eq_some_iff.1 h
    exact ih (hstep b x b₁ hb hfirst) hrest

theorem Layout.Fits.addAll {count : Nat} {bytes : List UInt8} (hl : l.Fits size)
    (h : l.addAll size count bytes = some l') : l'.Fits size :=
  foldlM_induction (P := Layout.Fits size) (fun _ _ _ hl h => hl.add h) hl h

/-- The blocks that go on with the map of a sparse file; each says whether there is one more. -/
inductive GoOn : Bool → List Block → Prop where

  | last : GoOn false []

  | more {b : Block} {bs : List Block} : b.length = blockSize → GoOn (b.getD 504 0 = 1) bs →
      GoOn true (b :: bs)

theorem GoOn.length_flatten {more : Bool} {bs : List Block} (h : GoOn more bs) :
    bs.flatten.length = blockSize * bs.length := by
  induction h with
  | last => rfl
  | more hb _ ih =>
    rw [List.flatten_cons, List.length_append, hb, ih, List.length_cons, Nat.mul_succ, Nat.add_comm]

theorem Layout.continued_eq {more : Bool} {bs : List Block} (h : GoOn more bs)
    (hat : StandsAt s position bs.flatten) {fuel : Nat} (hfuel : bs.length ≤ fuel)
    (hl : bs.foldlM (fun l b => l.addAll size 21 b) l = some l') :
    l.continued s size fuel more position = some (position + blockSize * bs.length, l') := by
  induction h generalizing position fuel l with
  | last =>
    cases hl
    cases fuel <;> rfl
  | @more b bs hb _ ih =>
    obtain ⟨fuel, rfl⟩ : ∃ fuel', fuel = fuel' + 1 := ⟨fuel - 1, by simp at hfuel; omega⟩
    rw [List.foldlM_cons] at hl
    obtain ⟨l₁, hfirst, hrest⟩ := Option.bind_eq_some_iff.1 hl
    rw [List.flatten_cons] at hat
    have hnext := hat.right
    rw [hb] at hnext
    have hgo := ih hnext (by simpa using hfuel) hrest
    rw [Layout.continued]
    simp only [hat.left.blockAt_eq hb, hfirst, Option.bind_eq_bind, Option.bind_some]
    rw [hgo, List.length_cons]
    simp [Nat.mul_succ]
    omega

end Layouts

end RemoteAgent.Tar
