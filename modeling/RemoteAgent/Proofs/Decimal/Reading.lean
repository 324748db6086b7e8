import RemoteAgent.Config
import RemoteAgent.Proofs.Decimal.Rounding
import RemoteAgent.Proofs.Decimal.Spelling

/-! # Readings of texts as floating-point numbers

The texts that are read at all are the spelled numbers and the words for what is not finite. A
reading is a length of time if it is a number that is neither below zero nor too great.
-/

namespace RemoteAgent

namespace Binary64

variable {cs : List Char}

/-- The words for what is not a finite number, and what they stand for. -/
inductive IsWord (s : Sign) : List Char → Binary64 → Prop
  | inf {cs : List Char} (h : cs.map Char.toLower = ['i', 'n', 'f']) :
      IsWord s cs (.infinite s.isNegative)
  | infinity {cs : List Char}
      (h : cs.map Char.toLower = ['i', 'n', 'f', 'i', 'n', 'i', 't', 'y']) :
      IsWord s cs (.infinite s.isNegative)
  | nan {cs : List Char} (h : cs.map Char.toLower = ['n', 'a', 'n']) : IsWord s cs .nan

/-- The texts that have a reading, and what they are read as: a number as what it is rounded to. -/
inductive Reads : List Char → Binary64 → Prop
  | number (sp : Spelling) {b : Binary64}
      (h : IsRounded sp.decimal.negative sp.decimal.magnitude b) : Reads sp.text b
  | word {s : Sign} {cs : List Char} {b : Binary64} (h : IsWord s cs b) :
      Reads (s.text ++ cs) b

theorem ofWord?_eq_some_iff {s : Sign} {b : Binary64} :
    ofWord? s.isNegative cs = some b ↔ IsWord s cs b := by
  constructor
  · intro h
    unfold ofWord? at h
    split at h
    · rename_i hword
      obtain rfl := Option.some_inj.1 h
      exact .inf (String.ofList_injective hword)
    · rename_i hword
      obtain rfl := Option.some_inj.1 h
      exact .infinity (String.ofList_injective hword)
    · rename_i hword
      obtain rfl := Option.some_inj.1 h
      exact .nan (String.ofList_injective hword)
    · cases h
  · rintro (h | h | h)
    · rw [ofWord?, h]
      rfl
    · rw [ofWord?, h]
      rfl
    · rw [ofWord?, h]
      rfl

theorem IsWord.head? {s : Sign} {b : Binary64} (h : IsWord s cs b) :
    ∃ c, cs.head? = some c ∧ (c.toLower = 'i' ∨ c.toLower = 'n') := by
  cases h with
  | inf h | infinity h =>
    obtain ⟨c, r, rfl, hc, -⟩ := List.map_eq_cons_iff.1 h
    exact ⟨c, rfl, .inl hc⟩
  | nan h =>
    obtain ⟨c, r, rfl, hc, -⟩ := List.map_eq_cons_iff.1 h
    exact ⟨c, rfl, .inr hc⟩

theorem IsWord.isAbsentFrom {s : Sign} {b : Binary64} (h : IsWord s cs b) :
    Sign.IsAbsentFrom cs := by
  obtain ⟨c, hhead, hc⟩ := h.head?
  refine Sign.isAbsentFrom_of_head? hhead ?_ ?_
  · rintro rfl
    revert hc
    decide
  · rintro rfl
    revert hc
    decide

theorem not_isWord_magnitude (sp : Spelling) {s : Sign} {b : Binary64} :
    ¬IsWord s sp.magnitude b := by
  intro h
  obtain ⟨c, hhead, hc⟩ := h.head?
  obtain ⟨c', hhead', hc'⟩ := sp.head?_magnitude
  obtain rfl : c = c' := Option.some_inj.1 (hhead.symm.trans hhead')
  obtain rfl | ⟨d, rfl⟩ := hc'
  · revert hc
    decide
  · clear hhead hhead'
    revert d
    decide

theorem ofText?_sign_append {s : Sign} (hs : s = .none → Sign.IsAbsentFrom cs) :
    ofText? (s.text ++ cs) =
      (ofWord? s.isNegative cs).or ((Decimal.ofText? (s.text ++ cs)).map ofDecimal) := by
  cases s with
  | minus => rfl
  | plus => rfl
  | none =>
    have habsent := hs rfl
    rw [Sign.text, List.nil_append]
    unfold ofText?
    split
    · exact absurd rfl (habsent _ rfl).1
    · exact absurd rfl (habsent _ rfl).2
    · rfl

theorem ofText?_eq_some_iff {b : Binary64} : ofText? cs = some b ↔ Reads cs b := by
  constructor
  · intro h
    obtain ⟨s, r, rfl, hr⟩ := Sign.exists_eq_text_append cs
    rw [ofText?_sign_append hr, Option.or_eq_some_iff] at h
    obtain hword | ⟨-, hdecimal⟩ := h
    · exact .word (ofWord?_eq_some_iff.1 hword)
    · obtain ⟨d, hd, rfl⟩ := Option.map_eq_some_iff.1 hdecimal
      obtain ⟨sp, hsp, rfl⟩ := Decimal.ofText?_eq_some_iff.1 hd
      exact hsp ▸ .number sp (Decimal.isRounded_ofDecimal sp.decimal)
  · rintro (⟨sp, hrounded⟩ | h)
    · have hnone : ofWord? sp.sign.isNegative sp.magnitude = none :=
        Option.eq_none_iff_forall_ne_some.2 fun b hb =>
          not_isWord_magnitude sp (ofWord?_eq_some_iff.1 hb)
      have hdecimal : Decimal.ofText? (sp.sign.text ++ sp.magnitude) = some sp.decimal :=
        Decimal.ofText?_eq_some_iff.2 ⟨sp, rfl, rfl⟩
      rw [Spelling.text, ofText?_sign_append fun _ => sp.isAbsentFrom_magnitude, hnone,
        Option.none_or, hdecimal, Option.map_some,
        (Decimal.isRounded_ofDecimal sp.decimal).unique hrounded]
    · rw [ofText?_sign_append fun _ => h.isAbsentFrom, ofWord?_eq_some_iff.2 h]
      rfl

end Binary64

namespace Binary64

/-- The number that a value is, if it is one. -/
def value? : Binary64 → Option ℚ
  | .finite negative m e => some (if negative then -(m * 2 ^ e) else m * 2 ^ e)
  | .infinite _ => none
  | .nan => none

/-- The number that a finite value is, zero having two signs. -/
theorem value?_finite {negative : Bool} {m : ℕ} {e : ℤ} (h : ¬(negative = true ∧ m ≠ 0)) :
    value? (.finite negative m e) = some ((m : ℚ) * 2 ^ e) := by
  rw [value?]
  split
  · rename_i hnegative
    have hm : m = 0 := by
      by_contra hne
      exact h ⟨hnegative, hne⟩
    rw [hm, Nat.cast_zero, zero_mul, neg_zero]
  · rfl

theorem value?_finite_neg {negative : Bool} {m : ℕ} {e : ℤ} {q : ℚ}
    (h : negative = true ∧ m ≠ 0) (hq : value? (.finite negative m e) = some q) : q < 0 := by
  rw [value?, if_pos h.1] at hq
  rw [← Option.some_inj.1 hq]
  have hm : (0 : ℚ) < m := Nat.cast_pos.2 (Nat.pos_of_ne_zero h.2)
  exact neg_neg_of_pos (by positivity)

end Binary64

/-- A length of time of less than 2 ^ 64 seconds, to the nearest nanosecond. -/
theorem Config.duration?_eq_some_iff {b : Binary64} {d : Duration} :
    duration? b = some d ↔
      ∃ q : ℚ, b.value? = some q ∧ 0 ≤ q ∧ q < 2 ^ 64 ∧ IsNearest (q * 10 ^ 9) d.nanoseconds := by
  cases b with
  | infinite negative => simp [duration?, Binary64.value?]
  | nan => simp [duration?, Binary64.value?]
  | finite negative m e =>
    by_cases hnegative : negative = true ∧ m ≠ 0
    · rw [duration?, if_pos hnegative]
      refine iff_of_false nofun ?_
      rintro ⟨q, hq, hnonneg, -⟩
      exact not_lt.2 hnonneg (Binary64.value?_finite_neg hnegative hq)
    · have hden : 0 < (Binary64.scale m 1 e).2 := Binary64.scale_pos m Nat.one_pos e
      have hvalue : ((Binary64.scale m 1 e).1 : ℚ) / (Binary64.scale m 1 e).2 = m * 2 ^ e := by
        rw [Binary64.scale_eq, Nat.cast_one, div_one]
      rw [duration?, if_neg hnegative, Binary64.value?_finite hnegative, ← hvalue]
      clear hvalue
      generalize Binary64.scale m 1 e = quotient at hden ⊢
      obtain ⟨num, den⟩ := quotient
      dsimp only at hden ⊢
      have hpos : (0 : ℚ) < den := Nat.cast_pos.2 hden
      have hnonneg : (0 : ℚ) ≤ num / den := by positivity
      have hlimit : Numeral.wordLimit * den ≤ num ↔ ¬(num / den : ℚ) < 2 ^ 64 := by
        rw [not_lt, le_div_iff₀ hpos]
        exact_mod_cast Iff.rfl
      have hnearest : IsNearest (num / den * 10 ^ 9)
          (roundQuotient (num * Duration.nanosecondsPerSecond) den) := by
        have := isNearest_roundQuotient (num * Duration.nanosecondsPerSecond) hden
        rwa [Nat.cast_mul, mul_div_right_comm, Duration.nanosecondsPerSecond,
          show ((1000000000 : ℕ) : ℚ) = 10 ^ 9 by norm_num] at this
      simp only [Option.some_inj, exists_eq_left', hlimit]
      by_cases hlt : (num / den : ℚ) < 2 ^ 64
      · rw [if_neg (not_not.2 hlt), Option.some_inj]
        constructor
        · rintro rfl
          exact ⟨hnonneg, hlt, hnearest⟩
        · rintro ⟨-, -, hd⟩
          rw [hnearest.unique hd]
      · rw [if_pos hlt]
        exact iff_of_false nofun fun h => hlt h.2.1

theorem Config.duration?_eq_none_iff {b : Binary64} :
    duration? b = none ↔ ∀ q : ℚ, b.value? = some q → q < 0 ∨ 2 ^ 64 ≤ q := by
  rw [Option.eq_none_iff_forall_ne_some]
  constructor
  · intro h q hq
    by_contra hrange
    rw [not_or, not_lt, not_le] at hrange
    obtain ⟨n, hn⟩ := exists_isNearest (mul_nonneg hrange.1 (by positivity : (0 : ℚ) ≤ 10 ^ 9))
    exact h ⟨n⟩ (duration?_eq_some_iff.2 ⟨q, hq, hrange.1, hrange.2, hn⟩)
  · intro h d hd
    obtain ⟨q, hq, hnonneg, hlt, -⟩ := duration?_eq_some_iff.1 hd
    exact (h q hq).elim (not_lt.2 hnonneg) (not_le.2 hlt)

end RemoteAgent
