import Mathlib.Data.Nat.ModEq
import RemoteAgent.Proofs.Decimal.Spelling
import RemoteAgent.Version

/-! # Texts of versions

Every number in the text of a version ends where something that is no digit begins, so the text can
be taken apart in one way only. The digits that a number is written with are read as this number,
and on the way no number is too great.
-/

namespace RemoteAgent

section Digits

variable {r r' : List Char}

/-- Digits go on until something else begins. -/
theorem Digits.text_append_inj {ds ds' : Digits} (hr : ∀ c ∈ r.head?, c.isDigit = false)
    (hr' : ∀ c ∈ r'.head?, c.isDigit = false) (h : ds.text ++ r = ds'.text ++ r') :
    ds.text = ds'.text ∧ r = r' := by
  have hspan := congrArg Decimal.spanDigits h
  rwa [Decimal.spanDigits_text_append hr, Decimal.spanDigits_text_append hr',
    Prod.mk.injEq] at hspan

theorem Digits.exists_toDigits (n : ℕ) :
    ∃ ds : Digits, ds ≠ [] ∧ Nat.toDigits 10 n = ds.text ∧ ds.value = n := by
  have hdigits : ∀ c ∈ Nat.toDigits 10 n, c.isDigit = true :=
    fun c => Nat.isDigit_of_mem_toDigits (by decide) (by decide)
  obtain ⟨ds, hds⟩ := Digits.forall_isDigit_iff.1 hdigits
  refine ⟨ds, ?_, hds, ?_⟩
  · rintro rfl
    exact Nat.toDigits_ne_nil hds
  · calc ds.value = Decimal.digitsValue (Nat.toDigits 10 n) := by rw [hds, ds.digitsValue_text]
      _ = n := Nat.ofDigitChars_ten_toDigits

theorem Digits.exists_of_text_eq {ds : Digits} {front back : List Char} {c : Char}
    (h : ds.text = front ++ c :: back) : ∃ (before after : Digits) (d : Fin 10),
      ds = before ++ d :: after ∧ front = before.text ∧ c = Nat.digitChar d := by
  obtain ⟨before, rest, rfl, rfl, hrest⟩ := List.map_eq_append_iff.1 h
  obtain ⟨d, after, rfl, rfl, -⟩ := List.map_eq_cons_iff.1 hrest
  exact ⟨before, after, d, rfl, rfl, rfl⟩

/-- Digits that are left out at the end make a number no greater. -/
theorem Digits.value_le_value_append (ds ds' : Digits) : ds.value ≤ (ds ++ ds').value := by
  rw [Digits.value_append]
  exact (Nat.le_mul_of_pos_right _ (by positivity)).trans (Nat.le_add_right _ _)

end Digits

namespace Version

section Components

variable {ds : Digits} {n : UInt32}

theorem toNat_digitChar_sub (d : Fin 10) : ((Nat.digitChar d).val - '0'.val).toNat = d := by
  revert d
  decide

theorem zero_le_digitChar (d : Fin 10) : '0'.val ≤ (Nat.digitChar d).val := by
  revert d
  decide

/-- Reading goes on modulo `2 ^ 32`. -/
theorem toNat_foldl_text (ds : Digits) (n : UInt32) :
    (ds.text.foldl (fun n c => n * 10 + (c.val - '0'.val)) n).toNat =
      (n.toNat * 10 ^ ds.length + ds.value) % 2 ^ 32 := by
  induction ds generalizing n with
  | nil => simp [Digits.value, Nat.mod_eq_of_lt n.toNat_lt]
  | cons d ds ih =>
    have hstep : Nat.ModEq (2 ^ 32) (n * 10 + ((Nat.digitChar d).val - '0'.val)).toNat
        (10 * n.toNat + d) := by
      rw [UInt32.toNat_add, UInt32.toNat_mul, toNat_digitChar_sub, mul_comm 10]
      exact (Nat.mod_modEq _ _).trans ((Nat.mod_modEq _ _).add_right _)
    rw [Digits.text, List.map_cons, List.foldl_cons]
    refine (ih _).trans ?_
    rw [← Digits.extend_value]
    exact (hstep.mul_right _).add_right _

theorem toNat_component (h : ds.value < 2 ^ 32) :
    (component (String.ofList ds.text)).toNat = ds.value := by
  rw [component, String.toList_ofList, toNat_foldl_text, UInt32.toNat_zero, Nat.zero_mul,
    Nat.zero_add, Nat.mod_eq_of_lt h]

/-- A digit is read after a number has been, without anything being too great or below zero. -/
structure ReadsOn (n : UInt32) (c : Char) : Prop where
  digit : '0'.val ≤ c.val
  product : n.toNat * 10 < 2 ^ 32
  sum : n.toNat * 10 + (c.val - '0'.val).toNat < 2 ^ 32

theorem readsOn_of_text {front back : List Char} {c : Char} (h : ds.value < 2 ^ 32)
    (hds : ds.text = front ++ c :: back) : ReadsOn (component (String.ofList front)) c := by
  obtain ⟨before, after, d, rfl, rfl, rfl⟩ := Digits.exists_of_text_eq hds
  have hsum : before.value * 10 + d ≤ Digits.value (before ++ d :: after) := by
    have hle := Digits.value_le_value_append (before ++ [d]) after
    rw [Digits.value_append before [d], Digits.value_cons] at hle
    simpa [Digits.value] using hle
  have hfront : (component (String.ofList before.text)).toNat = before.value :=
    toNat_component (by omega)
  refine ⟨zero_le_digitChar d, ?_, ?_⟩
  · rw [hfront]
    omega
  · rw [hfront, toNat_digitChar_sub]
    omega

theorem exists_toString (n : UInt32) :
    ∃ ds : Digits, ds ≠ [] ∧ toString n = String.ofList ds.text ∧ ds.value = n.toNat := by
  obtain ⟨ds, hne, hds, hvalue⟩ := Digits.exists_toDigits n.toNat
  exact ⟨ds, hne, Nat.toString_eq_ofList_toDigits.trans (congrArg String.ofList hds), hvalue⟩

@[simp] theorem component_toString (n : UInt32) : component (toString n) = n := by
  obtain ⟨ds, -, hds, hvalue⟩ := exists_toString n
  rw [hds, ← UInt32.toNat_inj, toNat_component (hvalue ▸ n.toNat_lt), hvalue]

theorem readsOn_toString {front back : List Char} {c : Char}
    (h : (toString n).toList = front ++ c :: back) :
    ReadsOn (component (String.ofList front)) c := by
  obtain ⟨ds, -, hds, hvalue⟩ := exists_toString n
  rw [hds, String.toList_ofList] at h
  exact readsOn_of_text (hvalue ▸ n.toNat_lt) h

end Components

section Texts

variable {v w : Version} {m n : UInt32} {r r' : List Char}

/-- A written number goes on until something else than a digit begins. -/
theorem toString_append_inj (hr : ∀ c ∈ r.head?, c.isDigit = false)
    (hr' : ∀ c ∈ r'.head?, c.isDigit = false)
    (h : (toString m).toList ++ r = (toString n).toList ++ r') : m = n ∧ r = r' := by
  obtain ⟨ds, -, hm, -⟩ := exists_toString m
  obtain ⟨ds', -, hn, -⟩ := exists_toString n
  rw [hm, hn, String.toList_ofList, String.toList_ofList] at h
  obtain ⟨htext, hrest⟩ := Digits.text_append_inj hr hr' h
  refine ⟨?_, hrest⟩
  rw [← component_toString m, ← component_toString n, hm, hn, htext]

/-- What follows the numbers. -/
def tagText : Option String → List Char
  | none => []
  | some tag => '-' :: tag.toList

theorem tagText_injective : Function.Injective tagText
  | none, none, _ => rfl
  | some _, some _, h => congrArg some (String.toList_injective (List.cons.inj h).2)

theorem noDigit_tagText (tag : Option String) : ∀ c ∈ (tagText tag).head?, c.isDigit = false := by
  rcases tag with _ | tag
  · nofun
  · rintro c ⟨⟩
    rfl

theorem noDigit_point (r : List Char) : ∀ c ∈ ('.' :: r).head?, c.isDigit = false := by
  rintro c ⟨⟩
  rfl

theorem toList_text (v : Version) :
    v.text.toList = (toString v.major).toList ++ '.' :: ((toString v.minor).toList ++
      '.' :: ((toString v.patch).toList ++ tagText v.tag)) := by
  have hsame : ∀ s : String, toString s = s := fun _ => rfl
  obtain ⟨major, minor, patch, _ | tag⟩ := v
  · simp [text, tagText, hsame]
  · simp [text, tagText, hsame]

/-- The text of a version begins with a digit. -/
theorem exists_head?_text (v : Version) :
    ∃ d : Fin 10, v.text.toList.head? = some (Nat.digitChar d) := by
  obtain ⟨ds, hne, hds, -⟩ := exists_toString v.major
  obtain ⟨d, hd⟩ := Digits.head?_text hne
  refine ⟨d, ?_⟩
  rw [toList_text, hds, String.toList_ofList, List.head?_append, hd]
  rfl

theorem text_inj : v.text = w.text ↔ v = w := by
  constructor
  · intro h
    rw [← String.toList_inj, toList_text, toList_text] at h
    obtain ⟨hmajor, h⟩ := toString_append_inj (noDigit_point _) (noDigit_point _) h
    obtain ⟨hminor, h⟩ :=
      toString_append_inj (noDigit_point _) (noDigit_point _) (List.cons.inj h).2
    obtain ⟨hpatch, htag⟩ :=
      toString_append_inj (noDigit_tagText _) (noDigit_tagText _) (List.cons.inj h).2
    rw [Version.mk.injEq]
    exact ⟨hmajor, hminor, hpatch, tagText_injective htag⟩
  · rintro rfl
    rfl

end Texts

end Version

end RemoteAgent
