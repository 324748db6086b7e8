import RemoteAgent.Decimal.Basic
import RemoteAgent.Proofs.Decimal.Digits
import RemoteAgent.Proofs.Text.Trimmed

/-! # Spelled numbers

A number is spelled with an optional sign, digits with an optional point among or around them, and
an optional power of ten. What is read as a decimal is exactly what is spelled that way.
-/

namespace RemoteAgent

/-- A sign as written, if it is. -/
inductive Sign where
  | none
  | plus
  | minus
  deriving DecidableEq, Repr

namespace Sign

def text : Sign → List Char
  | none => []
  | plus => ['+']
  | minus => ['-']

def isNegative : Sign → Bool
  | minus => true
  | _ => false

def apply (s : Sign) (n : Nat) : Int :=
  if s.isNegative then -n else n

/-- Where a sign could stand there is none. -/
def IsAbsentFrom (cs : List Char) : Prop :=
  ∀ c ∈ cs.head?, c ≠ '-' ∧ c ≠ '+'

theorem exists_eq_text_append (cs : List Char) :
    ∃ (s : Sign) (r : List Char), cs = s.text ++ r ∧ (s = none → IsAbsentFrom r) := by
  by_cases habsent : IsAbsentFrom cs
  · exact ⟨none, cs, rfl, fun _ => habsent⟩
  · obtain ⟨c, hc, hsign⟩ : ∃ c ∈ cs.head?, ¬(c ≠ '-' ∧ c ≠ '+') := by
      simpa [IsAbsentFrom] using habsent
    obtain ⟨r, rfl⟩ := List.head?_eq_some_iff.1 hc
    by_cases hminus : c = '-'
    · exact ⟨minus, r, by rw [hminus]; rfl, nofun⟩
    · have hplus : c = '+' := by
        by_contra hne
        exact hsign ⟨hminus, hne⟩
      exact ⟨plus, r, by rw [hplus]; rfl, nofun⟩

end Sign

/-- A power of ten as written. -/
structure Power where
  marker : Char
  sign : Sign
  digits : Digits
  marker_eq : marker = 'e' ∨ marker = 'E'
  digits_ne : digits ≠ []

namespace Power

def text (p : Power) : List Char :=
  p.marker :: (p.sign.text ++ p.digits.text)

def exponent (p : Power) : Int :=
  p.sign.apply p.digits.value

end Power

/-- A number as written; `fraction` are the digits after the point, if it has a point. -/
structure Spelling where
  sign : Sign
  whole : Digits
  fraction : Option Digits
  power : Option Power
  digits_ne : whole ++ fraction.getD [] ≠ []

namespace Spelling

def pointed : Option Digits → List Char
  | none => []
  | some ds => '.' :: ds.text

/-- The text after the sign. -/
def magnitude (sp : Spelling) : List Char :=
  sp.whole.text ++ (pointed sp.fraction ++ (sp.power.map Power.text).getD [])

def text (sp : Spelling) : List Char :=
  sp.sign.text ++ sp.magnitude

/-- All digits but those of the exponent. -/
def digits (sp : Spelling) : Digits :=
  sp.whole ++ sp.fraction.getD []

def exponent (sp : Spelling) : Int :=
  (sp.power.map Power.exponent).getD 0

/-- The number spelled. -/
def decimal (sp : Spelling) : Decimal where
  negative := sp.sign.isNegative
  coefficient := sp.digits.value
  exponent := sp.exponent - (sp.fraction.getD []).length

end Spelling

section Beginnings

variable {ds : Digits} {cs : List Char}

theorem Digits.head?_text (hne : ds ≠ []) :
    ∃ d : Fin 10, ds.text.head? = some (Nat.digitChar d) := by
  cases ds with
  | nil => exact absurd rfl hne
  | cons d ds => exact ⟨d, rfl⟩

theorem Sign.isAbsentFrom_of_head? {c : Char} (hhead : cs.head? = some c) (hminus : c ≠ '-')
    (hplus : c ≠ '+') : IsAbsentFrom cs := by
  intro c' hc
  rw [hhead, Option.mem_some_iff] at hc
  exact hc ▸ ⟨hminus, hplus⟩

theorem Digits.digitChar_ne {c : Char} (hc : c.isDigit = false) (d : Fin 10) :
    Nat.digitChar d ≠ c := by
  rintro rfl
  rw [isDigit_digitChar] at hc
  cases hc

theorem Digits.isAbsentFrom_text (hne : ds ≠ []) : Sign.IsAbsentFrom ds.text := by
  obtain ⟨d, hd⟩ := head?_text hne
  exact Sign.isAbsentFrom_of_head? hd (digitChar_ne rfl d) (digitChar_ne rfl d)

/-- After the sign there is a digit or the point. -/
theorem Spelling.head?_magnitude (sp : Spelling) :
    ∃ c, sp.magnitude.head? = some c ∧ (c = '.' ∨ ∃ d : Fin 10, c = Nat.digitChar d) := by
  obtain ⟨sign, whole, fraction, power, hne⟩ := sp
  cases whole with
  | cons d whole => exact ⟨_, rfl, .inr ⟨d, rfl⟩⟩
  | nil =>
    cases fraction with
    | none => exact absurd rfl hne
    | some ds => exact ⟨_, rfl, .inl rfl⟩

theorem Spelling.isAbsentFrom_magnitude (sp : Spelling) : Sign.IsAbsentFrom sp.magnitude := by
  obtain ⟨c, hc, rfl | ⟨d, rfl⟩⟩ := sp.head?_magnitude
  · exact Sign.isAbsentFrom_of_head? hc (by decide) (by decide)
  · exact Sign.isAbsentFrom_of_head? hc (Digits.digitChar_ne rfl d) (Digits.digitChar_ne rfl d)

end Beginnings

namespace Numeral

variable {limit n : Nat} {cs : List Char}

theorem ofSigned?_plus_append :
    ofSigned? 10 limit (Sign.plus.text ++ cs) = (ofDigits? 10 cs).filter (· < limit) := rfl

theorem ofSigned?_unsigned (h : '+' ∉ cs.head?) :
    ofSigned? 10 limit cs = (ofDigits? 10 cs).filter (· < limit) := by
  unfold ofSigned?
  split
  · exact absurd rfl h
  · rfl

/-- A numeral has digits after an optional plus sign. -/
theorem ofSigned?_eq_some_iff : ofSigned? 10 limit cs = some n ↔
    ∃ (s : Sign) (ds : Digits), s ≠ .minus ∧ ds ≠ [] ∧ cs = s.text ++ ds.text ∧
      n = ds.value ∧ n < limit := by
  have hfilter : ∀ {r}, (ofDigits? 10 r).filter (· < limit) = some n ↔
      ∃ ds : Digits, ds ≠ [] ∧ r = ds.text ∧ n = ds.value ∧ n < limit := by
    intro r
    rw [Option.filter_eq_some_iff, decide_eq_true_iff, ofDigits?_eq_some_iff]
    constructor
    · rintro ⟨⟨ds, hne, hds, hn⟩, hlt⟩
      exact ⟨ds, hne, hds, hn, hlt⟩
    · rintro ⟨ds, hne, hds, hn, hlt⟩
      exact ⟨⟨ds, hne, hds, hn⟩, hlt⟩
  constructor
  · intro h
    by_cases hplus : '+' ∈ cs.head?
    · obtain ⟨r, rfl⟩ := List.head?_eq_some_iff.1 hplus
      obtain ⟨ds, hne, rfl, hn⟩ := hfilter.1 (ofSigned?_plus_append.symm.trans h)
      exact ⟨.plus, ds, nofun, hne, rfl, hn⟩
    · obtain ⟨ds, hne, rfl, hn⟩ := hfilter.1 ((ofSigned?_unsigned hplus).symm.trans h)
      exact ⟨.none, ds, nofun, hne, rfl, hn⟩
  · rintro ⟨s, ds, hs, hne, rfl, hn⟩
    cases s with
    | minus => exact absurd rfl hs
    | plus => exact ofSigned?_plus_append.trans (hfilter.2 ⟨ds, hne, rfl, hn⟩)
    | none =>
      have hplus : '+' ∉ ds.text.head? := fun h => (Digits.isAbsentFrom_text hne _ h).2 rfl
      exact (ofSigned?_unsigned hplus).trans (hfilter.2 ⟨ds, hne, rfl, hn⟩)

end Numeral

namespace Decimal

variable {cs : List Char}

/-- Digits are split off up to what is none. -/
theorem spanDigits_text_append {ds : Digits} (hcs : ∀ c ∈ cs.head?, c.isDigit = false) :
    spanDigits (ds.text ++ cs) = (ds.text, cs) := by
  have hds : ∀ c ∈ ds.text, c.isDigit = true := Digits.forall_isDigit_iff.2 ⟨ds, rfl⟩
  rw [spanDigits, List.takeWhile_append_of_pos hds, List.dropWhile_append_of_pos hds]
  cases cs with
  | nil => rw [List.takeWhile_nil, List.dropWhile_nil, List.append_nil]
  | cons c cs =>
    have hc : c.isDigit = false := hcs c rfl
    rw [List.takeWhile_cons, List.dropWhile_cons, hc]
    simp

theorem exists_spanDigits (cs : List Char) :
    ∃ (ds : Digits) (r : List Char), cs = ds.text ++ r ∧ (∀ c ∈ r.head?, c.isDigit = false) ∧
      spanDigits cs = (ds.text, r) := by
  have hall : ∀ c ∈ cs.takeWhile Char.isDigit, c.isDigit = true := fun c hc =>
    List.mem_takeWhile_imp hc
  obtain ⟨ds, hds⟩ := Digits.forall_isDigit_iff.1 hall
  have hsplit : cs = ds.text ++ cs.dropWhile Char.isDigit := by
    rw [← hds, List.takeWhile_append_dropWhile]
  refine ⟨ds, cs.dropWhile Char.isDigit, hsplit, fun c hc => ?_, by rw [spanDigits, hds]⟩
  have hhead := List.head?_dropWhile_not Char.isDigit cs
  rwa [hc] at hhead

section Exponents

theorem exponent?_sign_append {s : Sign} (hs : s = .none → Sign.IsAbsentFrom cs) :
    exponent? (s.text ++ cs) = (Numeral.ofDigits? 10 cs).map s.apply := by
  cases s with
  | minus =>
    cases hn : Numeral.ofDigits? 10 cs
    · simp [exponent?, Sign.text, hn]
    · simp [exponent?, Sign.text, Sign.apply, Sign.isNegative, hn]
  | plus =>
    cases hn : Numeral.ofDigits? 10 cs
    · simp [exponent?, Sign.text, hn]
    · simp [exponent?, Sign.text, Sign.apply, Sign.isNegative, hn]
  | none =>
    have habsent := hs rfl
    have hplain : exponent? cs = (Numeral.ofDigits? 10 cs).map Nat.cast := by
      unfold exponent?
      split
      rename_i hsplit
      split at hsplit
      · exact absurd rfl (habsent _ rfl).1
      · exact absurd rfl (habsent _ rfl).2
      · obtain ⟨rfl, rfl⟩ := Prod.mk.inj hsplit
        cases hn : Numeral.ofDigits? 10 cs
        · simp
        · simp
    exact hplain

theorem exponent?_eq_some_iff {e : Int} : exponent? cs = some e ↔
    ∃ (s : Sign) (ds : Digits), ds ≠ [] ∧ cs = s.text ++ ds.text ∧ e = s.apply ds.value := by
  constructor
  · intro h
    obtain ⟨s, r, rfl, hr⟩ := Sign.exists_eq_text_append cs
    rw [exponent?_sign_append hr, Option.map_eq_some_iff] at h
    obtain ⟨n, hn, rfl⟩ := h
    obtain ⟨ds, hne, rfl, rfl⟩ := Numeral.ofDigits?_eq_some_iff.1 hn
    exact ⟨s, ds, hne, rfl, rfl⟩
  · rintro ⟨s, ds, hne, rfl, rfl⟩
    rw [exponent?_sign_append fun _ => Digits.isAbsentFrom_text hne,
      Numeral.ofDigits?_eq_some_iff.2 ⟨ds, hne, rfl, rfl⟩]
    rfl

end Exponents

section Magnitudes

variable {whole : Digits} {fraction : Option Digits} {tail : List Char}

/-- A number whose digits have been read, with the power of ten after them. -/
def withPower? (d : Decimal) : List Char → Option Decimal
  | [] => some d
  | c :: r =>
    if c = 'e' ∨ c = 'E' then (exponent? r).map fun e => { d with exponent := e + d.exponent }
    else none

/-- The parts that a text is taken apart into. -/
structure Parts (cs : List Char) (whole : Digits) (fraction : Option Digits)
    (tail : List Char) : Prop where
  eq_append : cs = whole.text ++ (Spelling.pointed fraction ++ tail)
  noDigit : ∀ c ∈ tail.head?, c.isDigit = false
  noPoint : fraction = none → '.' ∉ tail.head?

theorem exists_parts (cs : List Char) :
    ∃ (whole : Digits) (fraction : Option Digits) (tail : List Char),
      Parts cs whole fraction tail := by
  obtain ⟨whole, rest, hcs, hrest, -⟩ := exists_spanDigits cs
  by_cases hpoint : '.' ∈ rest.head?
  · obtain ⟨r, rfl⟩ := List.head?_eq_some_iff.1 hpoint
    obtain ⟨ds, tail, rfl, htail, -⟩ := exists_spanDigits r
    exact ⟨whole, some ds, tail, hcs, htail, nofun⟩
  · exact ⟨whole, none, rest, hcs, hrest, fun _ => hpoint⟩

theorem isEmpty_text (whole ds : Digits) :
    (whole.text.isEmpty && ds.text.isEmpty) = decide (whole ++ ds = []) := by
  rw [Bool.eq_iff_iff]
  simp [List.isEmpty_iff]

theorem digitsValue_text_append (whole ds : Digits) :
    digitsValue (whole.text ++ ds.text) = (whole ++ ds).value := by
  rw [← Digits.text_append, Digits.digitsValue_text]

theorem Parts.unsigned?_eq (h : Parts cs whole fraction tail) (negative : Bool) :
    unsigned? negative cs =
      if whole ++ fraction.getD [] = [] then none
      else withPower? ⟨negative, (whole ++ fraction.getD []).value, -(fraction.getD []).length⟩
        tail := by
  obtain ⟨rfl, hdigit, hpoint⟩ := h
  cases fraction with
  | some ds =>
    have hwhole : spanDigits (whole.text ++ ('.' :: ds.text ++ tail)) =
        (whole.text, '.' :: (ds.text ++ tail)) :=
      spanDigits_text_append (by simp)
    rw [unsigned?, Spelling.pointed, hwhole]
    simp only [spanDigits_text_append hdigit, isEmpty_text, digitsValue_text_append,
      Digits.length_text]
    cases tail with
    | nil => simp [withPower?]
    | cons c r => simp [withPower?, Int.sub_eq_add_neg]
  | none =>
    rw [unsigned?, Spelling.pointed, List.nil_append, spanDigits_text_append hdigit]
    cases tail with
    | nil => simp [withPower?, Digits.digitsValue_text]
    | cons c r =>
      have hc : c ≠ '.' := by
        rintro rfl
        exact hpoint rfl rfl
      simp [withPower?, hc, Digits.digitsValue_text]

theorem withPower?_eq_some_iff {d d' : Decimal} : withPower? d tail = some d' ↔
    ∃ power : Option Power, tail = (power.map Power.text).getD [] ∧
      d' = { d with exponent := (power.map Power.exponent).getD 0 + d.exponent } := by
  cases tail with
  | nil =>
    constructor
    · intro h
      refine ⟨none, rfl, ?_⟩
      rw [← Option.some_inj.1 h, Option.map_none, Option.getD_none, Int.zero_add]
    · rintro ⟨_ | power, hpower, rfl⟩
      · rw [withPower?, Option.map_none, Option.getD_none, Int.zero_add]
      · cases hpower
  | cons c r =>
    rw [withPower?, Option.ite_none_right_eq_some, Option.map_eq_some_iff]
    constructor
    · rintro ⟨hmarker, e, he, rfl⟩
      obtain ⟨s, ds, hne, rfl, rfl⟩ := exponent?_eq_some_iff.1 he
      exact ⟨some ⟨c, s, ds, hmarker, hne⟩, rfl, rfl⟩
    · rintro ⟨_ | ⟨c', s, ds, hmarker, hne⟩, hpower, rfl⟩
      · cases hpower
      · obtain ⟨rfl, rfl⟩ := List.cons.inj hpower
        exact ⟨hmarker, _, exponent?_eq_some_iff.2 ⟨s, ds, hne, rfl, rfl⟩, rfl⟩

theorem Spelling.parts (sp : Spelling) :
    Parts sp.magnitude sp.whole sp.fraction ((sp.power.map Power.text).getD []) := by
  have hhead : ∀ c ∈ ((sp.power.map Power.text).getD []).head?, c = 'e' ∨ c = 'E' := by
    intro c hc
    obtain ⟨_, _, _, _ | power, _⟩ := sp
    · cases hc
    · obtain rfl := Option.some_inj.1 hc
      exact power.marker_eq
  refine ⟨rfl, fun c hc => ?_, fun _ hpoint => ?_⟩
  · obtain rfl | rfl := hhead c hc
    · rfl
    · rfl
  · obtain h | h := hhead '.' hpoint
    · cases h
    · cases h

theorem unsigned?_magnitude (sp : Spelling) :
    unsigned? sp.sign.isNegative sp.magnitude = some sp.decimal := by
  rw [(Spelling.parts sp).unsigned?_eq, if_neg sp.digits_ne]
  exact withPower?_eq_some_iff.2 ⟨sp.power, rfl, rfl⟩

theorem exists_magnitude {d : Decimal} {s : Sign} (h : unsigned? s.isNegative cs = some d) :
    ∃ sp : Spelling, sp.sign = s ∧ cs = sp.magnitude ∧ d = sp.decimal := by
  obtain ⟨whole, fraction, tail, hparts⟩ := exists_parts cs
  rw [hparts.unsigned?_eq, Option.ite_none_left_eq_some] at h
  obtain ⟨hne, hd⟩ := h
  obtain ⟨power, rfl, rfl⟩ := withPower?_eq_some_iff.1 hd
  exact ⟨⟨s, whole, fraction, power, hne⟩, rfl, hparts.eq_append, rfl⟩

end Magnitudes


theorem ofText?_sign_append {s : Sign} (hs : s = .none → Sign.IsAbsentFrom cs) :
    ofText? (s.text ++ cs) = unsigned? s.isNegative cs := by
  cases s with
  | minus => rfl
  | plus => rfl
  | none =>
    have habsent := hs rfl
    rw [Sign.text, List.nil_append]
    unfold ofText?
    split
    · exact absurd rfl (habsent _ rfl).1
    · exact absurd rfl (habsent _ rfl).2
    · rfl

/-- What is read as a decimal is what is spelled as a number. -/
theorem ofText?_eq_some_iff {d : Decimal} :
    ofText? cs = some d ↔ ∃ sp : Spelling, cs = sp.text ∧ d = sp.decimal := by
  constructor
  · intro h
    obtain ⟨s, r, rfl, hr⟩ := Sign.exists_eq_text_append cs
    rw [ofText?_sign_append hr] at h
    obtain ⟨sp, rfl, rfl, rfl⟩ := exists_magnitude h
    exact ⟨sp, rfl, rfl⟩
  · rintro ⟨sp, rfl, rfl⟩
    rw [Spelling.text, ofText?_sign_append fun _ => sp.isAbsentFrom_magnitude,
      unsigned?_magnitude]

end Decimal

end RemoteAgent
