import RemoteAgent.Proofs.Config.Variables

/-! # Precision of the delay

The delay is rounded twice, to a floating-point number of seconds and this to a whole number of
nanoseconds. Below `2 ^ 23` seconds the first error is less than half a nanosecond, so that decimals
with nine digits after the point come out exactly. Both roundings keep the order.
-/

namespace RemoteAgent

/-- What is less than half a nanosecond away is rounded back. -/
theorem isNearest_of_abs_sub_le {x q : ℚ} {n : ℕ} (h : |x - q| ≤ 1 / 2 * 2 ^ (-30 : ℤ))
    (hn : x * 10 ^ 9 = n) : IsNearest (q * 10 ^ 9) n := by
  apply IsNearest.of_lt
  calc |q * 10 ^ 9 - n| = |x - q| * 10 ^ 9 := by
        rw [← hn, ← sub_mul, abs_mul, abs_sub_comm, abs_of_pos (by positivity : (0 : ℚ) < 10 ^ 9)]
    _ ≤ 1 / 2 * 2 ^ (-30 : ℤ) * 10 ^ 9 := mul_le_mul_of_nonneg_right h (by positivity)
    _ < 1 / 2 := by norm_num

namespace Binary64

variable {x r : ℚ}

/-- A number rounded can be a length of time if it is not too great, and a negative one only if
nothing is left of it. -/
theorem IsRounded.inRange_iff {negative : Bool} {b : Binary64} (h : IsRounded negative x b) :
    (b.value? = some r ∧ 0 ≤ r ∧ r < 2 ^ 64) ↔
      Rounds x r ∧ (negative = true → r = 0) ∧ r < 2 ^ 64 := by
  cases h with
  | @finite m e _ hrounds =>
    rw [value?, Option.some_inj]
    cases negative with
    | false =>
      constructor
      · rintro ⟨rfl, -, hlt⟩
        exact ⟨hrounds, fun h => absurd h Bool.false_ne_true, hlt⟩
      · rintro ⟨hr, -, hlt⟩
        exact ⟨hrounds.unique hr, hr.nonneg, hlt⟩
    | true =>
      rw [if_pos rfl]
      constructor
      · rintro ⟨rfl, hnonneg, hlt⟩
        have hzero : (m : ℚ) * 2 ^ e = 0 :=
          le_antisymm (neg_nonneg.1 hnonneg) hrounds.nonneg
        rw [hzero] at hrounds
        rw [hzero, neg_zero]
        exact ⟨hrounds, fun _ => rfl, by positivity⟩
      · rintro ⟨hr, hzero, hlt⟩
        obtain rfl := hzero rfl
        rw [hrounds.unique hr, neg_zero]
        exact ⟨rfl, le_rfl, hlt⟩
  | infinite hrounds hgreat =>
    constructor
    · rintro ⟨hr, -⟩
      cases hr
    · rintro ⟨hr, -, hlt⟩
      obtain rfl := hrounds.unique hr
      have hpower : (2 : ℚ) ^ (64 : ℤ) ≤ 2 ^ (1024 : ℤ) :=
        zpow_le_zpow_right₀ one_le_two (by norm_num)
      exact absurd hlt (not_lt.2 (hpower.trans hgreat))

theorem Reads.unique {cs : List Char} {b b' : Binary64} (h : Reads cs b) (h' : Reads cs b') :
    b = b' :=
  Option.some_inj.1 ((ofText?_eq_some_iff.2 h).symm.trans (ofText?_eq_some_iff.2 h'))

end Binary64

/-- Digits, at most nine of them after a point. -/
structure Spelling.IsPlain (sp : Spelling) : Prop where
  sign_ne : sp.sign ≠ .minus
  power_eq : sp.power = none
  length_le : (sp.fraction.getD []).length ≤ 9

namespace Spelling.IsPlain

variable {sp : Spelling}

theorem not_negative (h : sp.IsPlain) : sp.decimal.negative = false := by
  have hsign := h.sign_ne
  cases hs : sp.sign
  · simp [decimal, hs, Sign.isNegative]
  · simp [decimal, hs, Sign.isNegative]
  · exact absurd hs hsign

/-- A whole number of nanoseconds. -/
theorem exists_nanoseconds (h : sp.IsPlain) : ∃ n : ℕ, sp.decimal.value * 10 ^ 9 = n := by
  obtain ⟨k, hk⟩ := Nat.exists_eq_add_of_le h.length_le
  have hexponent : sp.decimal.exponent + (9 : ℕ) = k := by
    rw [decimal, exponent, h.power_eq]
    simp only [Option.map_none, Option.getD_none]
    omega
  refine ⟨sp.decimal.coefficient * 10 ^ k, ?_⟩
  calc sp.decimal.value * 10 ^ 9
      = sp.decimal.coefficient * (10 ^ sp.decimal.exponent * 10 ^ (9 : ℕ)) := by
        rw [Decimal.value_eq_magnitude h.not_negative, Decimal.magnitude, mul_assoc]
    _ = sp.decimal.coefficient * 10 ^ k := by
        rw [← zpow_natCast, ← zpow_add₀ (by norm_num), hexponent, zpow_natCast]
    _ = (sp.decimal.coefficient * 10 ^ k : ℕ) := by push_cast; rfl

end Spelling.IsPlain

namespace Config

open Binary64

variable {value : String} {sp sp' : Spelling} {d d' : Duration}

/-- What a spelled number sets the delay to. -/
theorem denotesDelay_iff (htrims : Text.Trims value.toList sp.text) :
    DenotesDelay value d ↔ ∃ q, Rounds sp.decimal.magnitude q ∧
      (sp.decimal.negative = true → q = 0) ∧ q < 2 ^ 64 ∧ IsNearest (q * 10 ^ 9) d.nanoseconds := by
  have hrounded := Decimal.isRounded_ofDecimal sp.decimal
  constructor
  · rintro ⟨core, b, q, hcore, hreads, hq, hnonneg, hlt, hnearest⟩
    obtain rfl : core = sp.text := hcore.trimBlanks_eq.symm.trans htrims.trimBlanks_eq
    obtain rfl := hreads.unique (.number sp hrounded)
    obtain ⟨hrounds, hzero, -⟩ := hrounded.inRange_iff.1 ⟨hq, hnonneg, hlt⟩
    exact ⟨q, hrounds, hzero, hlt, hnearest⟩
  · rintro ⟨q, hrounds, hzero, hlt, hnearest⟩
    obtain ⟨hq, hnonneg, -⟩ := hrounded.inRange_iff.2 ⟨hrounds, hzero, hlt⟩
    exact ⟨sp.text, _, q, htrims, .number sp hrounded, hq, hnonneg, hlt, hnearest⟩

/-- A plain time of up to `2 ^ 23` seconds is kept to the nanosecond. -/
theorem exists_exact_delay (htrims : Text.Trims value.toList sp.text) (hplain : sp.IsPlain)
    (hlt : sp.decimal.value < 2 ^ 23) :
    ∃ d, DenotesDelay value d ∧ (d.nanoseconds : ℚ) = sp.decimal.value * 10 ^ 9 := by
  have hvalue := Decimal.value_eq_magnitude hplain.not_negative
  obtain ⟨n, hn⟩ := hplain.exists_nanoseconds
  obtain ⟨q, hrounds⟩ := (Decimal.isRounded_ofDecimal sp.decimal).exists_rounds
  rw [hvalue] at hlt hn
  have hlimit : leastExponent ≤ 23 := by decide
  have hq : q ≤ 2 ^ (23 : ℤ) := hrounds.ge_of_isValue (isValue_two_zpow hlimit) hlt.le
  have hbelow : sp.decimal.magnitude < 2 ^ (-30 + 53 : ℤ) := hlt.trans_eq (by norm_num)
  have hnear := hrounds.abs_sub_le (by decide) hbelow
  refine ⟨⟨n⟩, (denotesDelay_iff htrims).2 ⟨q, hrounds, ?_, ?_, ?_⟩, ?_⟩
  · rw [hplain.not_negative]
    exact nofun
  · exact hq.trans_lt (by norm_num)
  · exact isNearest_of_abs_sub_le hnear hn
  · rw [hvalue, hn]

/-- The greater number is not the shorter delay. -/
theorem nanoseconds_le_of_value_le {value' : String} (htrims : Text.Trims value.toList sp.text)
    (htrims' : Text.Trims value'.toList sp'.text) (hd : DenotesDelay value d)
    (hd' : DenotesDelay value' d') (hle : sp.decimal.value ≤ sp'.decimal.value) :
    d.nanoseconds ≤ d'.nanoseconds := by
  obtain ⟨q, hrounds, hzero, -, hnearest⟩ := (denotesDelay_iff htrims).1 hd
  obtain ⟨q', hrounds', -, -, hnearest'⟩ := (denotesDelay_iff htrims').1 hd'
  have hq : q ≤ q' := by
    cases hnegative : sp.decimal.negative with
    | true => exact (hzero hnegative).trans_le hrounds'.nonneg
    | false =>
      refine hrounds.mono hrounds' ?_
      calc sp.decimal.magnitude = sp.decimal.value :=
            (Decimal.value_eq_magnitude hnegative).symm
        _ ≤ sp'.decimal.value := hle
        _ ≤ sp'.decimal.magnitude := sp'.decimal.value_le_magnitude
  exact hnearest.mono hnearest' (mul_le_mul_of_nonneg_right hq (by positivity))

variable {lookup : String → Option String} {c : Config}

theorem DenotesDelay.unique (h : DenotesDelay value d) (h' : DenotesDelay value d') : d = d' :=
  Option.some_inj.1 ((killDelay?_eq_some_iff.2 h).symm.trans (killDelay?_eq_some_iff.2 h'))

theorem IsSetBy.denotesDelay (h : IsSetBy lookup c)
    (hvalue : lookup "TETHER_KILL_DELAY" = some value) : DenotesDelay value c.killDelay := by
  obtain ⟨hnone, -⟩ | ⟨value', hvalue', hdelay⟩ := h.killDelay
  · exact absurd (hnone.symm.trans hvalue) nofun
  · rwa [Option.some_inj.1 (hvalue.symm.trans hvalue')]

/-- The timeout cannot be used, and this is what a reader of the variables hears of. -/
def RefusesTimeout (lookup : String → Option String) : Prop :=
  ∃ value, lookup "TETHER_SSH_CONNECT_TIMEOUT" = some value ∧ (∀ n, ¬DenotesTimeout value n) ∧
    ofVariables lookup = .error ⟨"TETHER_SSH_CONNECT_TIMEOUT", value⟩

/-- A delay that can be used is used, unless the timeout cannot. -/
theorem ofVariables_of_denotesDelay (hvalue : lookup "TETHER_KILL_DELAY" = some value)
    (hd : DenotesDelay value d) :
    (∃ c, ofVariables lookup = .ok c ∧ c.killDelay = d) ∨ RefusesTimeout lookup := by
  cases hresult : ofVariables lookup with
  | ok c => exact .inl ⟨c, rfl, ((ofVariables_eq_ok_iff.1 hresult).denotesDelay hvalue).unique hd⟩
  | error e =>
    cases ofVariables_eq_error_iff.1 hresult with
    | timeout hbad hnever => exact .inr ⟨_, hbad, hnever, hresult⟩
    | killDelay _ hvalue' hnone =>
      obtain rfl := Option.some_inj.1 (hvalue.symm.trans hvalue')
      have hsome := killDelay?_eq_some_iff.2 hd
      rw [killDelay?_eq_none_iff.2 hnone] at hsome
      cases hsome

/-- The delay is set to a number, with white space around it or not. -/
def SpellsDelay (lookup : String → Option String) (sp : Spelling) : Prop :=
  ∃ value, lookup "TETHER_KILL_DELAY" = some value ∧ Text.Trims value.toList sp.text

/-- A delay of fewer than `2 ^ 23` seconds that is written with at most nine digits after the point
is exact, and accepted with whatever else is set, unless the timeout cannot be used. Of any two
delays that are accepted the one with the greater number is not the shorter. -/
theorem ofVariables_precise :
    (∀ lookup sp, SpellsDelay lookup sp → sp.IsPlain → sp.decimal.value < 2 ^ 23 →
      (∃ c, ofVariables lookup = .ok c ∧
        (c.killDelay.nanoseconds : ℚ) = sp.decimal.value * 10 ^ 9) ∨ RefusesTimeout lookup) ∧
      ∀ lookup lookup' sp sp' c c', SpellsDelay lookup sp → SpellsDelay lookup' sp' →
        ofVariables lookup = .ok c → ofVariables lookup' = .ok c' →
        sp.decimal.value ≤ sp'.decimal.value →
        c.killDelay.nanoseconds ≤ c'.killDelay.nanoseconds := by
  constructor
  · rintro lookup sp ⟨value, hvalue, htrims⟩ hplain hlt
    obtain ⟨d, hd, hexact⟩ := exists_exact_delay htrims hplain hlt
    refine (ofVariables_of_denotesDelay hvalue hd).imp_left ?_
    rintro ⟨c, hok, rfl⟩
    exact ⟨c, hok, hexact⟩
  · rintro lookup lookup' sp sp' c c' ⟨value, hvalue, htrims⟩ ⟨value', hvalue', htrims'⟩ hok hok'
    exact nanoseconds_le_of_value_le htrims htrims'
      ((ofVariables_eq_ok_iff.1 hok).denotesDelay hvalue)
      ((ofVariables_eq_ok_iff.1 hok').denotesDelay hvalue')

section Examples

/-- Nothing but the delay is set. -/
def onlyDelay (value name : String) : Option String :=
  if name = "TETHER_KILL_DELAY" then some value else none

def half : Spelling := ⟨.none, [0], some [5], none, by decide⟩

def thousand : Spelling :=
  ⟨.none, [1], none, some ⟨'e', .none, [3], .inl rfl, by decide⟩, by decide⟩

theorem half_value : half.decimal.value = 1 / 2 := by
  have hdecimal : half.decimal = ⟨false, 5, -1⟩ := rfl
  rw [hdecimal, Decimal.value_eq_magnitude rfl, Decimal.magnitude]
  norm_num

theorem thousand_value : thousand.decimal.value = 1000 := by
  have hdecimal : thousand.decimal = ⟨false, 1, 3⟩ := rfl
  rw [hdecimal, Decimal.value_eq_magnitude rfl, Decimal.magnitude]
  norm_num

theorem ofVariables_precise_half : ∃ c c',
    ofVariables (onlyDelay "0.5") = .ok c ∧ c.killDelay = .ofMilliseconds 500 ∧
      ofVariables (onlyDelay "1e3") = .ok c' ∧
      c.killDelay.nanoseconds ≤ c'.killDelay.nanoseconds := by
  have hhalf : SpellsDelay (onlyDelay "0.5") half :=
    ⟨"0.5", rfl, Text.trimBlanks_eq_iff.1 (by decide)⟩
  have hthousand : SpellsDelay (onlyDelay "1e3") thousand :=
    ⟨"1e3", rfl, Text.trimBlanks_eq_iff.1 (by decide)⟩
  have hunset : ¬RefusesTimeout (onlyDelay "0.5") := by
    rintro ⟨value, h, -⟩
    cases h
  obtain ⟨⟨_, ⟨d⟩, _, _⟩, hok, hd⟩ := (ofVariables_precise.1 _ half hhalf ⟨nofun, rfl, by decide⟩
    (by rw [half_value]; norm_num)).resolve_right hunset
  have hok' : ofVariables (onlyDelay "1e3") =
      .ok { Config.default with killDelay := .ofSeconds 1000 } := by decide +kernel
  refine ⟨_, _, hok, ?_, hok', ofVariables_precise.2 _ _ half thousand _ _ hhalf hthousand hok
    hok' ?_⟩
  · have hnanoseconds : (d : ℚ) = (500000000 : ℕ) := by
      rw [hd, half_value]
      norm_num
    exact congrArg Duration.mk (Nat.cast_injective hnanoseconds)
  · rw [half_value, thousand_value]
    norm_num

end Examples

end Config

end RemoteAgent
