import Mathlib.Data.Nat.Digits.Defs
import Mathlib.Tactic.Ring
import RemoteAgent.Decimal.Basic

/-! # Digit strings

The texts that consist of decimal digits, and the numbers that they denote, the first digit having
the highest place. Leading zeros do not matter.
-/

namespace RemoteAgent

/-- Decimal digits as they are written. -/
abbrev Digits := List (Fin 10)

namespace Digits

def text (ds : Digits) : List Char :=
  ds.map fun d : Fin 10 => Nat.digitChar d

def value (ds : Digits) : Nat :=
  Nat.ofDigits 10 (ds.map Fin.val).reverse

variable (ds ds' : Digits)

@[simp] theorem text_nil : text [] = [] := rfl

@[simp] theorem text_append : text (ds ++ ds') = ds.text ++ ds'.text :=
  List.map_append

@[simp] theorem length_text : ds.text.length = ds.length :=
  List.length_map _

@[simp] theorem text_eq_nil_iff {ds : Digits} : ds.text = [] ↔ ds = [] :=
  List.map_eq_nil_iff

theorem value_append : value (ds ++ ds') = ds.value * 10 ^ ds'.length + ds'.value := by
  rw [value, value, value, List.map_append, List.reverse_append, Nat.ofDigits_append]
  simp [Nat.add_comm, Nat.mul_comm]

theorem value_cons (d : Fin 10) : value (d :: ds) = d * 10 ^ ds.length + ds.value := by
  rw [← List.singleton_append, value_append]
  simp [value]

section Characters

theorem isDigit_digitChar (d : Fin 10) : (Nat.digitChar d).isDigit = true := by
  revert d
  decide

theorem toNat_digitChar (d : Fin 10) : (Nat.digitChar d).toNat - '0'.toNat = d := by
  revert d
  decide

/-- Only the ten digits count as such. -/
theorem exists_digitChar {c : Char} (h : c.isDigit = true) : ∃ d : Fin 10, c = Nat.digitChar d := by
  have hrange : 48 ≤ c.toNat ∧ c.toNat ≤ 57 := by
    simpa [Char.isDigit, UInt32.le_iff_toNat_le] using h
  have hchar : ∀ n : Fin 10, Char.ofNat (48 + n) = Nat.digitChar n := by decide
  refine ⟨⟨c.toNat - 48, by omega⟩, ?_⟩
  calc c = Char.ofNat c.toNat := (Char.ofNat_toNat c).symm
    _ = Char.ofNat (48 + (c.toNat - 48)) := by rw [Nat.add_sub_cancel' hrange.1]
    _ = Nat.digitChar (c.toNat - 48) := hchar ⟨c.toNat - 48, by omega⟩

theorem forall_isDigit_iff {cs : List Char} :
    (∀ c ∈ cs, c.isDigit = true) ↔ ∃ ds : Digits, cs = ds.text := by
  constructor
  · intro h
    induction cs with
    | nil => exact ⟨[], rfl⟩
    | cons c cs ih =>
      obtain ⟨hc, hcs⟩ := List.forall_mem_cons.1 h
      obtain ⟨d, rfl⟩ := exists_digitChar hc
      obtain ⟨ds, rfl⟩ := ih hcs
      exact ⟨d :: ds, rfl⟩
  · rintro ⟨ds, rfl⟩ c hc
    obtain ⟨d, -, rfl⟩ := List.mem_map.1 hc
    exact isDigit_digitChar d

end Characters

/-- Reading from the front, each digit makes ten times as much of what was read before. -/
theorem extend_value (d : Fin 10) (n : Nat) :
    (10 * n + d) * 10 ^ ds.length + ds.value =
      n * 10 ^ (d :: ds).length + value (d :: ds) := by
  rw [value_cons, List.length_cons, Nat.pow_succ]
  ring

theorem foldl_text (n : Nat) :
    ds.text.foldl (fun n c => 10 * n + (c.toNat - '0'.toNat)) n =
      n * 10 ^ ds.length + ds.value := by
  induction ds generalizing n with
  | nil => simp [value]
  | cons d ds ih =>
    rw [text, List.map_cons, List.foldl_cons, toNat_digitChar, ← extend_value]
    exact ih (10 * n + d)

theorem digitsValue_text : Decimal.digitsValue ds.text = ds.value := by
  rw [Decimal.digitsValue, foldl_text, Nat.zero_mul, Nat.zero_add]

end Digits

namespace Numeral

variable {cs : List Char} {n : Nat}

theorem digit?_eq_some_iff {c : Char} : digit? 10 c = some n ↔
    ∃ d : Fin 10, c = Nat.digitChar d ∧ n = d := by
  constructor
  · intro h
    rw [digit?] at h
    split at h
    · rename_i hdigit
      have hle : 48 ≤ c.toNat := by simpa [UInt32.le_iff_toNat_le, Char.le_def] using hdigit.1
      have hlt : c.toNat - 48 < 10 := hdigit.2
      have hisDigit : c.isDigit = true := by
        simp only [Char.isDigit, ge_iff_le, UInt32.le_iff_toNat_le, Bool.and_eq_true,
          decide_eq_true_eq]
        exact ⟨hle, by change c.toNat ≤ 57; omega⟩
      obtain ⟨d, rfl⟩ := Digits.exists_digitChar hisDigit
      refine ⟨d, rfl, ?_⟩
      rw [← Option.some_inj.1 h, Digits.toNat_digitChar]
    · cases h
  · rintro ⟨d, rfl, rfl⟩
    revert d
    decide

theorem extend?_eq_some_iff {m : Nat} : extend? 10 n cs = some m ↔
    ∃ ds : Digits, cs = ds.text ∧ m = n * 10 ^ ds.length + ds.value := by
  induction cs generalizing n with
  | nil =>
    constructor
    · intro h
      exact ⟨[], rfl, by simpa [Digits.value] using (Option.some_inj.1 h).symm⟩
    · rintro ⟨ds, hds, rfl⟩
      obtain rfl := Digits.text_eq_nil_iff.1 hds.symm
      simp [extend?, Digits.value]
  | cons c cs ih =>
    rw [extend?, Option.bind_eq_bind, Option.bind_eq_some_iff]
    constructor
    · rintro ⟨k, hk, hrest⟩
      obtain ⟨d, rfl, rfl⟩ := digit?_eq_some_iff.1 hk
      obtain ⟨ds, rfl, rfl⟩ := ih.1 hrest
      exact ⟨d :: ds, rfl, Digits.extend_value ds d n⟩
    · rintro ⟨_ | ⟨d, ds⟩, hds, rfl⟩
      · cases hds
      · obtain ⟨rfl, rfl⟩ := List.cons.inj hds
        exact ⟨d, digit?_eq_some_iff.2 ⟨d, rfl, rfl⟩,
          ih.2 ⟨ds, rfl, (Digits.extend_value ds d n).symm⟩⟩

/-- Nothing but one or more digits is read, and as the number that they denote. -/
theorem ofDigits?_eq_some_iff : ofDigits? 10 cs = some n ↔
    ∃ ds : Digits, ds ≠ [] ∧ cs = ds.text ∧ n = ds.value := by
  cases cs with
  | nil =>
    refine iff_of_false nofun ?_
    rintro ⟨ds, hne, hds, -⟩
    exact hne (Digits.text_eq_nil_iff.1 hds.symm)
  | cons c cs =>
    have hfrom : ofDigits? 10 (c :: cs) = extend? 10 0 (c :: cs) := rfl
    rw [hfrom, extend?_eq_some_iff]
    refine exists_congr fun ds => ⟨?_, ?_⟩
    · rintro ⟨hds, rfl⟩
      refine ⟨?_, hds, by rw [Nat.zero_mul, Nat.zero_add]⟩
      rintro rfl
      cases hds
    · rintro ⟨-, hds, rfl⟩
      exact ⟨hds, by rw [Nat.zero_mul, Nat.zero_add]⟩

end Numeral

end RemoteAgent
