import Mathlib.Algebra.Order.Field.Power
import Mathlib.Algebra.Order.Floor.Ring
import Mathlib.Data.Rat.Floor
import Mathlib.Tactic.FieldSimp
import Mathlib.Tactic.Linarith
import Mathlib.Tactic.NormNum
import Mathlib.Tactic.Positivity
import Mathlib.Tactic.Ring
import RemoteAgent.Decimal.Binary64

/-! # Rounding to floating-point numbers

Around every number the floating-point numbers are evenly spaced, by a power of two. The number
rounded is the nearest of them, a tie going to the even one, and rounding keeps the order. What a
decimal is read as is its rounding, or infinite if this is too great.
-/

namespace RemoteAgent

section Nearest

/-- The whole number nearest to `q`, the even one of two. -/
structure IsNearest (q : ℚ) (n : ℕ) : Prop where
  near : |q - n| ≤ 1 / 2
  even : |q - n| = 1 / 2 → Even n

theorem IsNearest.of_half {q : ℚ} {n : ℕ} (hhalf : |q - n| = 1 / 2) (heven : Even n) :
    IsNearest q n :=
  ⟨hhalf.le, fun _ => heven⟩

/-- Below a half beyond a whole number this one is nearest, above a half the next one. -/
theorem isNearest_of_fraction {n : ℕ} {t : ℚ} (hn : 0 ≤ t) (ht : t < 1) :
    IsNearest (n + t) (if t < 1 / 2 then n else if 1 / 2 < t then n + 1 else n + n % 2) := by
  split
  · rename_i hlt
    have habs : |n + t - (n : ℚ)| = t := by rw [add_sub_cancel_left, abs_of_nonneg hn]
    exact ⟨habs.trans_le hlt.le, fun h => absurd (habs.symm.trans h) hlt.ne⟩
  · split
    · rename_i hgt
      have habs : |n + t - ((n + 1 : ℕ) : ℚ)| = 1 - t := by
        rw [Nat.cast_add, Nat.cast_one, add_sub_add_left_eq_sub, abs_sub_comm,
          abs_of_pos (sub_pos.2 ht)]
      refine ⟨habs.trans_le (by linarith), fun h => ?_⟩
      linarith [habs.symm.trans h]
    · obtain rfl : t = 1 / 2 := le_antisymm (not_lt.1 ‹_›) (not_lt.1 ‹_›)
      obtain hparity | hparity := Nat.mod_two_eq_zero_or_one n
      · rw [hparity, Nat.add_zero]
        refine .of_half ?_ (Nat.even_iff.2 hparity)
        rw [add_sub_cancel_left, abs_of_pos one_half_pos]
      · rw [hparity]
        refine .of_half ?_ (Nat.even_add_one.2 (Nat.not_even_iff.2 hparity))
        rw [Nat.cast_add, Nat.cast_one, add_sub_add_left_eq_sub, abs_sub_comm, sub_half,
          abs_of_pos one_half_pos]

theorem isNearest_roundQuotient {den : ℕ} (num : ℕ) (hden : 0 < den) :
    IsNearest (num / den) (roundQuotient num den) := by
  have hpos : (0 : ℚ) < den := Nat.cast_pos.2 hden
  have hquotient : (num : ℚ) / den = (num / den : ℕ) + (num % den : ℕ) / den := by
    rw [div_eq_iff hpos.ne', add_mul, div_mul_cancel₀ _ hpos.ne']
    exact_mod_cast (Nat.div_add_mod' num den).symm
  have hlow : 2 * (num % den) < den ↔ ((num % den : ℕ) : ℚ) / den < 1 / 2 := by
    rw [div_lt_div_iff₀ hpos two_pos, one_mul, mul_comm]
    exact_mod_cast Iff.rfl
  have hhigh : den < 2 * (num % den) ↔ 1 / 2 < ((num % den : ℕ) : ℚ) / den := by
    rw [div_lt_div_iff₀ two_pos hpos, one_mul, mul_comm _ (2 : ℚ)]
    exact_mod_cast Iff.rfl
  have hrest : ((num % den : ℕ) : ℚ) / den < 1 :=
    (div_lt_one hpos).2 (by exact_mod_cast Nat.mod_lt num hden)
  rw [hquotient, roundQuotient]
  simp only [hlow, hhigh]
  exact isNearest_of_fraction (by positivity) hrest

theorem exists_isNearest {q : ℚ} (hq : 0 ≤ q) : ∃ n, IsNearest q n := by
  refine ⟨roundQuotient q.num.toNat q.den, ?_⟩
  have hnum : ((q.num.toNat : ℕ) : ℚ) = q.num := by
    exact_mod_cast Int.toNat_of_nonneg (Rat.num_nonneg.2 hq)
  have hq' : ((q.num.toNat : ℕ) : ℚ) / q.den = q := by rw [hnum, Rat.num_div_den]
  have hnearest := isNearest_roundQuotient q.num.toNat q.den_pos
  rwa [hq'] at hnearest

theorem IsNearest.unique {q : ℚ} {m n : ℕ} (hm : IsNearest q m) (hn : IsNearest q n) : m = n := by
  wlog hlt : m < n generalizing m n
  · obtain heq | hgt := (not_lt.1 hlt).eq_or_lt
    · exact heq.symm
    · exact (this hn hm hgt).symm
  have hle : (m : ℚ) + 1 ≤ n := by exact_mod_cast hlt
  have hm' := abs_le.1 hm.near
  have hn' := abs_le.1 hn.near
  have hq : q - m = 1 / 2 ∧ q - n = -(1 / 2) := by
    constructor <;> linarith
  have hn1 : n = m + 1 := by
    have : (n : ℚ) = m + 1 := by linarith
    exact_mod_cast this
  have hmeven : Even m := hm.even (by rw [hq.1, abs_of_pos one_half_pos])
  have hneven : Even n := hn.even (by rw [hq.2, abs_neg, abs_of_pos one_half_pos])
  rw [hn1, Nat.even_add_one] at hneven
  exact absurd hmeven hneven

variable {x y : ℚ} {m n : ℕ}

/-- Of two numbers the greater one is nearest only to greater numbers. -/
theorem le_of_closest {q r : ℚ} (h : r < q) (hx : |x - q| ≤ |x - r|) (hy : |y - r| ≤ |y - q|) :
    y ≤ x := by
  rw [← sq_le_sq] at hx hy
  by_contra hlt
  have := mul_pos (sub_pos.2 h) (sub_pos.2 (not_le.1 hlt))
  nlinarith

theorem isNearest_natCast (n : ℕ) : IsNearest n n := by
  constructor <;> norm_num

theorem IsNearest.of_lt (h : |x - n| < 1 / 2) : IsNearest x n :=
  ⟨h.le, fun hhalf => absurd hhalf h.ne⟩

theorem IsNearest.mono (hx : IsNearest x m) (hy : IsNearest y n) (h : x ≤ y) : m ≤ n := by
  rcases h.eq_or_lt with rfl | hlt
  · exact (hx.unique hy).le
  · by_contra hnot
    have hle : (n : ℚ) + 1 ≤ m := by exact_mod_cast not_le.1 hnot
    have hx' := abs_le.1 hx.near
    have hy' := abs_le.1 hy.near
    linarith

/-- No whole number is closer. -/
theorem IsNearest.closest (h : IsNearest x m) (k : ℕ) : |x - m| ≤ |x - k| := by
  have hnear := abs_le.1 h.near
  rcases lt_trichotomy k m with hlt | rfl | hgt
  · have hle : (k : ℚ) + 1 ≤ m := by exact_mod_cast hlt
    calc |x - m| ≤ 1 / 2 := h.near
      _ ≤ x - k := by linarith
      _ ≤ |x - k| := le_abs_self _
  · exact le_rfl
  · have hle : (m : ℚ) + 1 ≤ k := by exact_mod_cast hgt
    calc |x - m| ≤ 1 / 2 := h.near
      _ ≤ -(x - k) := by linarith
      _ ≤ |x - k| := neg_le_abs _

end Nearest

namespace Binary64

/-- Around a number values are `2 ^ e` apart: it has 53 bits before the unit, or fewer where no
smaller unit exists. -/
structure SpacedAt (x : ℚ) (e : ℤ) : Prop where
  least : leastExponent ≤ e
  below : x < 2 ^ (e + 53)
  full : e = leastExponent ∨ 2 ^ (e + 52) ≤ x

/-- The numbers that are values if exponents have no greatest. -/
def IsValue (r : ℚ) : Prop :=
  ∃ (m : ℕ) (e : ℤ), m < 2 ^ 53 ∧ leastExponent ≤ e ∧ r = m * 2 ^ e

/-- A number rounded to the spacing around it. -/
def Rounds (x q : ℚ) : Prop :=
  ∃ (e : ℤ) (m : ℕ), SpacedAt x e ∧ IsNearest (x / 2 ^ e) m ∧ q = m * 2 ^ e

variable {x y q r : ℚ} {e e' : ℤ}

theorem SpacedAt.le (h : SpacedAt x e) (hleast : leastExponent ≤ e') (hx : x < 2 ^ (e' + 53)) :
    e ≤ e' := by
  rcases h.full with rfl | hfull
  · exact hleast
  · have hlt : (2 : ℚ) ^ (e + 52) < 2 ^ (e' + 53) := hfull.trans_lt hx
    rw [zpow_lt_zpow_iff_right₀ one_lt_two] at hlt
    omega

theorem SpacedAt.unique (h : SpacedAt x e) (h' : SpacedAt x e') : e = e' :=
  le_antisymm (h.le h'.least h'.below) (h'.le h.least h.below)

theorem Rounds.unique (hq : Rounds x q) (hr : Rounds x r) : q = r := by
  obtain ⟨e, m, he, hm, rfl⟩ := hq
  obtain ⟨e', m', he', hm', rfl⟩ := hr
  obtain rfl := he.unique he'
  rw [hm.unique hm']

theorem Rounds.nonneg (h : Rounds x q) : 0 ≤ q := by
  obtain ⟨e, m, -, -, rfl⟩ := h
  positivity

theorem two_zpow_pos (e : ℤ) : (0 : ℚ) < 2 ^ e :=
  zpow_pos two_pos e

theorem two_pow_mul_two_zpow (n : ℕ) (e : ℤ) : ((2 ^ n : ℕ) : ℚ) * 2 ^ e = 2 ^ (e + n) := by
  rw [zpow_add₀ two_ne_zero, zpow_natCast, mul_comm]
  push_cast
  rfl

theorem abs_sub_mul_two_zpow (x : ℚ) (k : ℕ) (e : ℤ) :
    |x - k * 2 ^ e| = |x / 2 ^ e - k| * 2 ^ e := by
  have hpos := two_zpow_pos e
  rw [← abs_of_pos hpos, ← abs_mul, abs_of_pos hpos, sub_mul, div_mul_cancel₀ _ hpos.ne']

theorem natCast_mul_two_zpow_lt {k : ℕ} (hk : k < 2 ^ 53) (e : ℤ) :
    (k : ℚ) * 2 ^ e < 2 ^ (e + 53) := by
  have hlt : (k : ℚ) < 2 ^ (53 : ℤ) := by exact_mod_cast hk
  rw [zpow_add₀ two_ne_zero, mul_comm]
  exact mul_lt_mul_of_pos_left hlt (two_zpow_pos e)

theorem isValue_two_zpow (h : leastExponent ≤ e) : IsValue (2 ^ e) :=
  ⟨1, e, by norm_num, h, by rw [Nat.cast_one, one_mul]⟩

/-- No value is closer. -/
theorem Rounds.closest (h : Rounds x q) (hr : IsValue r) : |x - q| ≤ |x - r| := by
  obtain ⟨e, m, he, hm, rfl⟩ := h
  obtain ⟨k, e', hk, he', rfl⟩ := hr
  have hmultiple : ∀ n : ℕ, |x - m * 2 ^ e| ≤ |x - n * 2 ^ e| := by
    intro n
    rw [abs_sub_mul_two_zpow, abs_sub_mul_two_zpow]
    exact mul_le_mul_of_nonneg_right (hm.closest n) (two_zpow_pos e).le
  rcases le_or_gt e e' with hle | hlt
  · -- A value with a larger unit is a multiple of the spacing.
    obtain ⟨d, rfl⟩ : ∃ d : ℕ, e' = e + d := ⟨(e' - e).toNat, by omega⟩
    have hunits : (k : ℚ) * 2 ^ (e + d : ℤ) = ((k * 2 ^ d : ℕ) : ℚ) * 2 ^ e := by
      rw [zpow_add₀ two_ne_zero, zpow_natCast]
      push_cast
      ring
    rw [hunits]
    exact hmultiple _
  · -- A value with a smaller unit is below the least number that has this spacing.
    have hfull : (2 : ℚ) ^ (e + 52) ≤ x := he.full.resolve_left (by omega)
    have hpower : ((2 ^ 52 : ℕ) : ℚ) * 2 ^ e = 2 ^ (e + 52) := two_pow_mul_two_zpow 52 e
    have hbelow : (k : ℚ) * 2 ^ e' < 2 ^ (e + 52) :=
      (natCast_mul_two_zpow_lt hk e').trans_le (zpow_le_zpow_right₀ one_le_two (by omega))
    calc |x - m * 2 ^ e| ≤ |x - (2 ^ 52 : ℕ) * 2 ^ e| := hmultiple _
      _ = x - 2 ^ (e + 52) := by rw [hpower, abs_of_nonneg (sub_nonneg.2 hfull)]
      _ ≤ x - k * 2 ^ e' := sub_le_sub_left hbelow.le x
      _ ≤ |x - k * 2 ^ e'| := le_abs_self _

/-- A mantissa has at most one bit too many, and no fewer than 53 bits unless the unit is the
least. -/
theorem SpacedAt.mantissa {m : ℕ} (he : SpacedAt x e) (hm : IsNearest (x / 2 ^ e) m) :
    m ≤ 2 ^ 53 ∧ (e ≠ leastExponent → 2 ^ 52 ≤ m) := by
  have hpos := two_zpow_pos e
  constructor
  · have hle : x / 2 ^ e ≤ (2 ^ 53 : ℕ) := by
      rw [div_le_iff₀ hpos, mul_comm]
      exact_mod_cast (zpow_add₀ (two_ne_zero (α := ℚ)) e 53) ▸ he.below.le
    exact hm.mono (isNearest_natCast _) hle
  · intro hne
    have hle : ((2 ^ 52 : ℕ) : ℚ) ≤ x / 2 ^ e := by
      rw [le_div_iff₀ hpos, mul_comm]
      exact_mod_cast (zpow_add₀ (two_ne_zero (α := ℚ)) e 52) ▸ he.full.resolve_left hne
    exact (isNearest_natCast _).mono hm hle

theorem Rounds.isValue (h : Rounds x q) : IsValue q := by
  obtain ⟨e, m, he, hm, rfl⟩ := h
  rcases (he.mantissa hm).1.eq_or_lt with rfl | hlt
  · have hleast := he.least
    refine ⟨2 ^ 52, e + 1, by norm_num, by omega, ?_⟩
    rw [two_pow_mul_two_zpow, two_pow_mul_two_zpow]
    ring_nf
  · exact ⟨m, e, hlt, he.least, rfl⟩

theorem Rounds.mono (hq : Rounds x q) (hr : Rounds y r) (h : x ≤ y) : q ≤ r := by
  rcases h.eq_or_lt with rfl | hlt
  · exact (hq.unique hr).le
  · by_contra hnot
    have hle := le_of_closest (not_le.1 hnot) (hq.closest hr.isValue) (hr.closest hq.isValue)
    exact not_lt.2 hle hlt

theorem Rounds.le_of_isValue (hq : Rounds x q) (hr : IsValue r) (h : r ≤ x) : r ≤ q := by
  by_contra hlt
  have hclosest := hq.closest hr
  rw [abs_of_nonneg (by linarith), abs_of_nonneg (by linarith)] at hclosest
  linarith

theorem Rounds.ge_of_isValue (hq : Rounds x q) (hr : IsValue r) (h : x ≤ r) : q ≤ r := by
  by_contra hlt
  have hclosest := hq.closest hr
  rw [abs_of_nonpos (by linarith), abs_of_nonpos (by linarith)] at hclosest
  linarith

/-- The error is at most half of the unit. -/
theorem Rounds.abs_sub_le (hq : Rounds x q) (hleast : leastExponent ≤ e')
    (hx : x < 2 ^ (e' + 53)) : |x - q| ≤ 1 / 2 * 2 ^ e' := by
  obtain ⟨e, m, he, hm, rfl⟩ := hq
  have hunit : (2 : ℚ) ^ e ≤ 2 ^ e' := zpow_le_zpow_right₀ one_le_two (he.le hleast hx)
  rw [abs_sub_mul_two_zpow]
  exact mul_le_mul hm.near hunit (two_zpow_pos e).le one_half_pos.le

section Quotients

theorem scale_pos {den : ℕ} (num : ℕ) (hden : 0 < den) (e : ℤ) : 0 < (scale num den e).2 := by
  rw [scale]
  split
  · exact hden
  · exact Nat.mul_pos hden (Nat.pow_pos Nat.two_pos)

theorem scale_eq (num den : ℕ) (e : ℤ) :
    ((scale num den e).1 : ℚ) / (scale num den e).2 = num / den * 2 ^ e := by
  rw [scale]
  split
  · rename_i he
    obtain ⟨n, rfl⟩ := Int.eq_ofNat_of_zero_le he
    rw [Int.toNat_natCast, zpow_natCast, Nat.pow_eq, Nat.cast_mul, Nat.cast_pow, Nat.cast_ofNat,
      mul_div_right_comm]
  · rename_i he
    obtain ⟨n, hn⟩ := Int.eq_ofNat_of_zero_le (show 0 ≤ -e by omega)
    obtain rfl : e = -n := by omega
    rw [neg_neg, Int.toNat_natCast, zpow_neg, zpow_natCast, Nat.pow_eq, Nat.cast_mul,
      Nat.cast_pow, Nat.cast_ofNat, div_mul_eq_div_div, div_eq_mul_inv _ ((2 : ℚ) ^ n)]

variable {num den : ℕ}

theorem log2_spec {n : ℕ} (hn : n ≠ 0) :
    (2 : ℚ) ^ (n.log2 : ℤ) ≤ n ∧ (n : ℚ) < 2 ^ (n.log2 + 1 : ℤ) := by
  constructor
  · rw [zpow_natCast]
    exact_mod_cast Nat.log2_self_le hn
  · exact_mod_cast Nat.lt_log2_self

/-- The difference of the logarithms of two numbers tells that of their quotient up to one. -/
theorem log2_quotient (hnum : num ≠ 0) (hden : den ≠ 0) :
    (2 : ℚ) ^ (num.log2 - den.log2 - 1 : ℤ) ≤ num / den ∧
      (num / den : ℚ) < 2 ^ (num.log2 - den.log2 + 1 : ℤ) := by
  obtain ⟨hnumLow, hnumHigh⟩ := log2_spec hnum
  obtain ⟨hdenLow, hdenHigh⟩ := log2_spec hden
  have hpos : (0 : ℚ) < den := Nat.cast_pos.2 (Nat.pos_of_ne_zero hden)
  constructor
  · calc (2 : ℚ) ^ (num.log2 - den.log2 - 1 : ℤ)
        = 2 ^ (num.log2 : ℤ) / 2 ^ (den.log2 + 1 : ℤ) := by
          rw [← zpow_sub₀ two_ne_zero, sub_sub]
      _ ≤ num / den := div_le_div₀ (Nat.cast_nonneg _) hnumLow hpos hdenHigh.le
  · calc (num / den : ℚ) < 2 ^ (num.log2 + 1 : ℤ) / den := by gcongr
      _ ≤ 2 ^ (num.log2 + 1 : ℤ) / 2 ^ (den.log2 : ℤ) := by gcongr
      _ = 2 ^ (num.log2 - den.log2 + 1 : ℤ) := by
          rw [← zpow_sub₀ two_ne_zero]
          congr 1
          ring

theorem floorLog2_spec (hnum : num ≠ 0) (hden : den ≠ 0) :
    (2 : ℚ) ^ floorLog2 num den ≤ num / den ∧ (num / den : ℚ) < 2 ^ (floorLog2 num den + 1) := by
  obtain ⟨hlow, hhigh⟩ := log2_quotient hnum hden
  have hless : ∀ e : ℤ, (scale num den (-e)).1 < (scale num den (-e)).2 ↔
      (num / den : ℚ) < 2 ^ e := by
    intro e
    have hpos : (0 : ℚ) < (scale num den (-e)).2 :=
      Nat.cast_pos.2 (scale_pos num (Nat.pos_of_ne_zero hden) (-e))
    have hquotient := scale_eq num den (-e)
    rw [zpow_neg, ← div_eq_mul_inv] at hquotient
    rw [← div_lt_one (two_zpow_pos e), ← hquotient, div_lt_one hpos]
    exact Nat.cast_lt.symm
  unfold floorLog2
  simp only [hless]
  split
  next hlt =>
    rw [sub_add_cancel]
    exact ⟨hlow, hlt⟩
  next hnot => exact ⟨not_lt.1 hnot, hhigh⟩

theorem spacedAt_floorLog2 (hnum : num ≠ 0) (hden : den ≠ 0) :
    SpacedAt (num / den) (max (floorLog2 num den - 52) leastExponent) := by
  obtain ⟨hlow, hhigh⟩ := floorLog2_spec hnum hden
  refine ⟨le_max_right _ _, hhigh.trans_le (zpow_le_zpow_right₀ one_le_two ?_), ?_⟩
  · have := le_max_left (floorLog2 num den - 52) leastExponent
    omega
  · rcases max_choice (floorLog2 num den - 52) leastExponent with h | h
    · rw [h, sub_add_cancel]
      exact .inr hlow
    · exact .inl h

/-- A mantissa of 53 bits, or of fewer beside the least unit. -/
structure IsCanonical (m : ℕ) (e : ℤ) : Prop where
  lt : m < 2 ^ 53
  least : leastExponent ≤ e
  full : e = leastExponent ∨ 2 ^ 52 ≤ m

theorem IsCanonical.spacedAt {m : ℕ} (h : IsCanonical m e) : SpacedAt (m * 2 ^ e) e := by
  refine ⟨h.least, natCast_mul_two_zpow_lt h.lt e, h.full.imp_right fun hfull => ?_⟩
  have hle : ((2 ^ 52 : ℕ) : ℚ) ≤ m := by exact_mod_cast hfull
  calc (2 : ℚ) ^ (e + 52) = (2 ^ 52 : ℕ) * 2 ^ e := (two_pow_mul_two_zpow 52 e).symm
    _ ≤ m * 2 ^ e := mul_le_mul_of_nonneg_right hle (two_zpow_pos e).le

/-- A value has one mantissa and one unit. -/
theorem IsCanonical.unique {m m' : ℕ} (h : IsCanonical m e) (h' : IsCanonical m' e')
    (heq : (m : ℚ) * 2 ^ e = m' * 2 ^ e') : m = m' ∧ e = e' := by
  obtain rfl : e = e' := h.spacedAt.unique (heq ▸ h'.spacedAt)
  exact ⟨Nat.cast_injective (mul_right_cancel₀ (two_zpow_pos e).ne' heq), rfl⟩

/-- A number rounded, with its sign; what is too great is infinite. -/
inductive IsRounded (negative : Bool) (x : ℚ) : Binary64 → Prop
  | finite {m : ℕ} {e : ℤ} (hcanonical : IsCanonical m e) (h : Rounds x (m * 2 ^ e))
      (hlt : (m : ℚ) * 2 ^ e < 2 ^ (1024 : ℤ)) : IsRounded negative x (.finite negative m e)
  | infinite {q : ℚ} (h : Rounds x q) (hle : 2 ^ (1024 : ℤ) ≤ q) :
      IsRounded negative x (.infinite negative)

theorem IsRounded.exists_rounds {negative : Bool} {b : Binary64} (h : IsRounded negative x b) :
    ∃ q, Rounds x q := by
  cases h with
  | finite _ h => exact ⟨_, h⟩
  | infinite h => exact ⟨_, h⟩

theorem IsRounded.unique {negative : Bool} {b b' : Binary64} (h : IsRounded negative x b)
    (h' : IsRounded negative x b') : b = b' := by
  cases h with
  | finite hcanonical hrounds hlt =>
    cases h' with
    | finite hcanonical' hrounds' =>
      obtain ⟨rfl, rfl⟩ := hcanonical.unique hcanonical' (hrounds.unique hrounds')
      rfl
    | infinite hrounds' hle =>
      obtain rfl := hrounds.unique hrounds'
      exact absurd hlt (not_lt.2 hle)
  | infinite hrounds hle =>
    cases h' with
    | finite _ hrounds' hlt =>
      obtain rfl := hrounds.unique hrounds'
      exact absurd hlt (not_lt.2 hle)
    | infinite => rfl

theorem isCanonical_zero : IsCanonical 0 leastExponent :=
  ⟨by norm_num, le_rfl, .inl rfl⟩

theorem isRounded_zero (negative : Bool) :
    IsRounded negative 0 (.finite negative 0 leastExponent) := by
  have hspaced : SpacedAt 0 leastExponent := ⟨le_rfl, two_zpow_pos _, .inl rfl⟩
  have hnearest : IsNearest (0 / 2 ^ leastExponent) 0 := by
    rw [zero_div]
    exact_mod_cast isNearest_natCast 0
  refine .finite isCanonical_zero ⟨leastExponent, 0, hspaced, hnearest, rfl⟩ ?_
  rw [Nat.cast_zero, zero_mul]
  positivity

theorem ofQuotient_eq (negative : Bool) (hnum : num ≠ 0) {e : ℤ} {m : ℕ}
    (he : e = max (floorLog2 num den - 52) leastExponent)
    (hm : m = roundQuotient (scale num den (-e)).1 (scale num den (-e)).2) :
    ofQuotient negative num den =
      if m = 2 ^ 53 then
        if greatestExponent < e + 1 then .infinite negative
        else .finite negative (2 ^ 52) (e + 1)
      else if greatestExponent < e then .infinite negative else .finite negative m e := by
  have hcarry : 2 * leastNormal = 2 ^ 53 := rfl
  rw [ofQuotient, if_neg hnum, ← he]
  dsimp only
  rw [← hm, hcarry]
  split
  · rfl
  · rfl

/-- A number with its mantissa cut to 53 bits is infinite just if its exponent is too great. -/
theorem isRounded_of_isCanonical (negative : Bool) {m : ℕ} (hcanonical : IsCanonical m e)
    (h : Rounds x (m * 2 ^ e)) :
    IsRounded negative x
      (if greatestExponent < e then .infinite negative else .finite negative m e) := by
  have hgreatest : greatestExponent = 971 := rfl
  split
  next hgreat =>
    refine .infinite h ?_
    have hleast : e ≠ leastExponent := by
      rintro rfl
      exact absurd hgreat (by decide)
    calc (2 : ℚ) ^ (1024 : ℤ) ≤ 2 ^ (e + 52) := zpow_le_zpow_right₀ one_le_two (by omega)
      _ ≤ m * 2 ^ e := hcanonical.spacedAt.full.resolve_left hleast
  next hnot =>
    refine .finite hcanonical h ?_
    calc (m : ℚ) * 2 ^ e < 2 ^ (e + 53) := hcanonical.spacedAt.below
      _ ≤ 2 ^ (1024 : ℤ) := zpow_le_zpow_right₀ one_le_two (by omega)

theorem isRounded_ofQuotient (negative : Bool) (num : ℕ) (hden : den ≠ 0) :
    IsRounded negative (num / den) (ofQuotient negative num den) := by
  by_cases hnum : num = 0
  · rw [hnum, ofQuotient, if_pos rfl, Nat.cast_zero, zero_div]
    exact isRounded_zero negative
  · have hspaced := spacedAt_floorLog2 hnum hden
    rw [ofQuotient_eq negative hnum rfl rfl]
    generalize max (floorLog2 num den - 52) leastExponent = e at hspaced ⊢
    have hnearest : IsNearest (num / den / 2 ^ e)
        (roundQuotient (scale num den (-e)).1 (scale num den (-e)).2) := by
      have h := isNearest_roundQuotient (scale num den (-e)).1
        (scale_pos num (Nat.pos_of_ne_zero hden) (-e))
      rwa [scale_eq, zpow_neg, ← div_eq_mul_inv] at h
    generalize roundQuotient (scale num den (-e)).1 (scale num den (-e)).2 = m at hnearest ⊢
    have hrounds : Rounds (num / den) (m * 2 ^ e) := ⟨e, m, hspaced, hnearest, rfl⟩
    obtain ⟨hle, hfull⟩ := hspaced.mantissa hnearest
    split
    next hcarry =>
      -- The mantissa has one bit too many, a power of two, and is halved.
      have hhalved : ((2 ^ 53 : ℕ) : ℚ) * 2 ^ e = (2 ^ 52 : ℕ) * 2 ^ (e + 1) := by
        rw [two_pow_mul_two_zpow, two_pow_mul_two_zpow]
        ring_nf
      rw [hcarry, hhalved] at hrounds
      have hleast := hspaced.least
      exact isRounded_of_isCanonical negative ⟨by norm_num, by omega, .inr le_rfl⟩ hrounds
    next hne =>
      exact isRounded_of_isCanonical negative
        ⟨lt_of_le_of_ne hle hne, hspaced.least, or_iff_not_imp_left.2 hfull⟩ hrounds

end Quotients

end Binary64

namespace Decimal

/-- The number that a decimal is without its sign. -/
def magnitude (d : Decimal) : ℚ :=
  d.coefficient * 10 ^ d.exponent

def value (d : Decimal) : ℚ :=
  if d.negative then -d.magnitude else d.magnitude

variable {d : Decimal}

theorem magnitude_nonneg (d : Decimal) : 0 ≤ d.magnitude := by
  rw [magnitude]
  positivity

theorem value_eq_magnitude (h : d.negative = false) : d.value = d.magnitude := by
  rw [value, h]
  rfl

theorem value_le_magnitude (d : Decimal) : d.value ≤ d.magnitude := by
  have := d.magnitude_nonneg
  rw [value]
  split
  · linarith
  · exact le_rfl

theorem magnitude_of_nonneg (h : 0 ≤ d.exponent) :
    d.magnitude = ((d.coefficient * 10 ^ d.exponent.toNat : ℕ) : ℚ) / (1 : ℕ) := by
  obtain ⟨n, hn⟩ := Int.eq_ofNat_of_zero_le h
  rw [magnitude, hn, Int.toNat_natCast, zpow_natCast, Nat.cast_one, div_one]
  push_cast
  rfl

theorem magnitude_of_neg (h : d.exponent < 0) :
    d.magnitude = d.coefficient / ((10 ^ (-d.exponent).toNat : ℕ) : ℚ) := by
  obtain ⟨n, hn⟩ := Int.eq_ofNat_of_zero_le (neg_nonneg.2 h.le)
  rw [magnitude, hn, Int.toNat_natCast, ← neg_neg d.exponent, hn, zpow_neg, zpow_natCast,
    div_eq_mul_inv]
  push_cast
  rfl

section Range

open Binary64

variable {negative : Bool}

/-- A number has at most a third as many decimal digits as it has binary ones, and one more. -/
theorem lt_ten_pow (c : ℕ) : c < 10 ^ (c.log2 / 3 + 1) := by
  calc c < 2 ^ (c.log2 + 1) := Nat.lt_log2_self
    _ ≤ 2 ^ (3 * (c.log2 / 3 + 1)) := Nat.pow_le_pow_right two_pos (by omega)
    _ = (2 ^ 3) ^ (c.log2 / 3 + 1) := pow_mul _ _ _
    _ ≤ 10 ^ (c.log2 / 3 + 1) := Nat.pow_le_pow_left (by norm_num) _

/-- In 28 decimal digits there is room for 93 binary ones. -/
theorem two_zpow_le_ten_zpow {k l : ℕ} (h : (2 : ℚ) ^ k ≤ 10 ^ l) :
    (2 : ℚ) ^ ((93 * 11 + k : ℕ) : ℤ) ≤ 10 ^ ((28 * 11 + l : ℕ) : ℤ) := by
  have hdigits : (2 : ℚ) ^ 93 ≤ 10 ^ 28 := by norm_num
  rw [zpow_natCast, zpow_natCast, pow_add, pow_mul, pow_add, pow_mul]
  gcongr

theorem isRounded_of_great (hcoefficient : d.coefficient ≠ 0) (h : 310 < d.exponent) :
    IsRounded negative d.magnitude (.infinite negative) := by
  have hrounded := isRounded_ofQuotient negative (d.coefficient * 10 ^ d.exponent.toNat) one_ne_zero
  rw [← magnitude_of_nonneg (by omega)] at hrounded
  obtain ⟨q, hq⟩ := hrounded.exists_rounds
  have hone : (1 : ℚ) ≤ d.coefficient := by exact_mod_cast Nat.pos_of_ne_zero hcoefficient
  have hgreat : (2 : ℚ) ^ (1024 : ℤ) ≤ d.magnitude := by
    calc (2 : ℚ) ^ (1024 : ℤ) ≤ 10 ^ (311 : ℤ) :=
          two_zpow_le_ten_zpow (k := 1) (l := 3) (by norm_num)
      _ ≤ 10 ^ d.exponent := zpow_le_zpow_right₀ (by norm_num) (by omega)
      _ ≤ d.coefficient * 10 ^ d.exponent := le_mul_of_one_le_left (by positivity) hone
  exact .infinite hq (hq.le_of_isValue (isValue_two_zpow (by decide)) hgreat)

theorem isRounded_of_small (h : d.exponent + (d.coefficient.log2 / 3 + 1 : ℕ) < -330) :
    IsRounded negative d.magnitude (.finite negative 0 leastExponent) := by
  have hcoefficient : (d.coefficient : ℚ) < 10 ^ ((d.coefficient.log2 / 3 + 1 : ℕ) : ℤ) := by
    exact_mod_cast lt_ten_pow d.coefficient
  have hsmall : d.magnitude < 2 ^ (-1075 : ℤ) := by
    calc d.magnitude
        < 10 ^ ((d.coefficient.log2 / 3 + 1 : ℕ) : ℤ) * 10 ^ d.exponent :=
          mul_lt_mul_of_pos_right hcoefficient (by positivity)
      _ = 10 ^ (d.exponent + (d.coefficient.log2 / 3 + 1 : ℕ)) := by
          rw [zpow_add₀ (by norm_num), mul_comm]
      _ ≤ 10 ^ (-331 : ℤ) := zpow_le_zpow_right₀ (by norm_num) (by omega)
      _ ≤ 2 ^ (-1075 : ℤ) := by
          rw [zpow_neg, zpow_neg]
          exact inv_anti₀ (two_zpow_pos 1075)
            (two_zpow_le_ten_zpow (k := 52) (l := 23) (by norm_num))
  have hspaced : SpacedAt d.magnitude leastExponent :=
    ⟨le_rfl, hsmall.trans_le (zpow_le_zpow_right₀ one_le_two (by decide)), .inl rfl⟩
  have hnearest : IsNearest (d.magnitude / 2 ^ leastExponent) 0 := by
    have hnonneg : 0 ≤ d.magnitude / 2 ^ leastExponent :=
      div_nonneg (magnitude_nonneg d) (two_zpow_pos _).le
    refine ⟨?_, fun _ => ⟨0, rfl⟩⟩
    rw [Nat.cast_zero, sub_zero, abs_of_nonneg hnonneg, div_le_iff₀ (two_zpow_pos _)]
    calc d.magnitude ≤ 2 ^ (-1075 : ℤ) := hsmall.le
      _ = 1 / 2 * 2 ^ leastExponent := by
          rw [leastExponent, one_div, ← zpow_neg_one, ← zpow_add₀ two_ne_zero]
          rfl
  refine .finite isCanonical_zero ⟨leastExponent, 0, hspaced, hnearest, rfl⟩ ?_
  rw [Nat.cast_zero, zero_mul]
  exact two_zpow_pos _

end Range

open Binary64 in
theorem isRounded_ofDecimal (d : Decimal) : IsRounded d.negative d.magnitude (ofDecimal d) := by
  unfold ofDecimal
  split
  next hzero =>
    have hmagnitude : d.magnitude = 0 := by rw [magnitude, hzero, Nat.cast_zero, zero_mul]
    rw [hmagnitude]
    exact isRounded_zero d.negative
  next hcoefficient =>
    split
    next hgreat => exact isRounded_of_great hcoefficient hgreat
    · split
      next hsmall => exact isRounded_of_small hsmall
      · split
        next hexponent =>
          rw [magnitude_of_nonneg hexponent]
          exact isRounded_ofQuotient d.negative _ one_ne_zero
        next hexponent =>
          rw [magnitude_of_neg (not_le.1 hexponent)]
          exact isRounded_ofQuotient d.negative _ (by positivity)

end Decimal

end RemoteAgent
