import RemoteAgent.Proofs.Handshake.Receiving

/-! # What a wire form tells of a version

Versions agree when their wire forms are the same bytes, so the client and the agent accept exactly
one message of their peer: the one that they send themselves.
-/

namespace RemoteAgent.Version

open StreamMachine

variable {v w own : Version} {message : List UInt8}

theorem isCompatibleWith_iff_toWire : v.isCompatibleWith w = true ↔ v.toWire = w.toWire := by
  refine ⟨toWire_congr, fun h => (isCompatibleWith_iff v w).2 ?_⟩
  have hread := congrArg ofWire h
  rw [ofWire_toWire, ofWire_toWire] at hread
  exact Except.ok.inj hread

theorem equivalence_isCompatibleWith : Equivalence fun v w : Version => v.isCompatibleWith w := by
  simp only [isCompatibleWith_iff_toWire]
  exact ⟨fun _ => rfl, Eq.symm, Eq.trans⟩

theorem check_eq_compatible_iff : own.check w = .compatible ↔ w.toWire = own.toWire := by
  rw [← isCompatibleWith_iff_toWire, check]
  split
  next h => exact iff_of_true rfl h
  next h => exact iff_of_false nofun h

theorem check_ofWire_iff (hlength : message.length = wireSize) :
    (ofWire message).map own.check = .ok .compatible ↔ message = own.toWire := by
  obtain ⟨v, hv, -, hwire⟩ := exists_ofWire (Nat.le_of_eq hlength.symm)
  rw [List.take_of_length_le (Nat.le_of_eq hlength)] at hwire
  rw [hv, Except.map, Except.ok.injEq, check_eq_compatible_iff, hwire]

theorem check_received_iff (s : Script) :
    (run Receiving.start s).1.map own.check = .ok .compatible ↔
      ∃ rest, s.signals = own.toWire.map .byte ++ rest := by
  constructor
  · intro h
    have hreceives := receives_run s
    generalize (run Receiving.start s).1 = result at h hreceives
    generalize (run Receiving.start s).2.signals = rest at hreceives
    generalize s.signals = signals at hreceives ⊢
    cases hreceives with
    | version hlength hv =>
      rw [← hv, check_ofWire_iff hlength] at h
      exact ⟨rest, by rw [h]⟩
    | ended | failed | exhausted => cases h
  · rintro ⟨rest, hrest⟩
    have hall := receivesAll_toWire [own] rest
    rw [List.flatMap_singleton, ← hrest] at hall
    obtain ⟨hresult, -⟩ := receiveMany_of_receivesAll hall rfl
    have hrun : (run Receiving.start s).1 = .ok own.untagged := (List.cons.inj hresult).1
    rw [hrun, ← ofWire_toWire, check_ofWire_iff (length_toWire own)]

/-- Versions without tags and strings of twelve bytes are the same thing: every version has a wire
form, every twelve bytes are one, what follows them does not matter and nothing shorter will do.
Comparing versions is comparing wire forms, so whoever compares the version it receives accepts one
message, its own, in whatever pieces it comes. -/
theorem wireForm_codec :
    (∀ v : Version, v.toWire.length = 12) ∧
    (∀ (v : Version) (rest : List UInt8), ofWire (v.toWire ++ rest) = .ok { v with tag := none }) ∧
    (∀ bytes : List UInt8, 12 ≤ bytes.length →
      ∃ v, ofWire bytes = .ok v ∧ v.tag = none ∧ v.toWire = bytes.take 12) ∧
    (∀ bytes : List UInt8, bytes.length < 12 →
      ofWire bytes = .error (.truncated bytes.length 12)) ∧
    (∀ v w : Version, v.isCompatibleWith w = true ↔ v.toWire = w.toWire) ∧
    (Equivalence fun v w : Version => v.isCompatibleWith w = true) ∧
    (∀ (v w : Version) (tag tag' : Option String),
      isCompatibleWith { v with tag } { w with tag := tag' } = v.isCompatibleWith w) ∧
    (∀ (own : Version) (message : List UInt8), message.length = 12 →
      ((ofWire message).map own.check = .ok .compatible ↔ message = own.toWire)) ∧
    ∀ (own : Version) (s : Script),
      (run Receiving.start s).1.map own.check = .ok .compatible ↔
        ∃ rest, s.signals = own.toWire.map .byte ++ rest :=
  ⟨length_toWire, ofWire_toWire_append, fun _ => exists_ofWire, fun _ => ofWire_of_lt,
    fun _ _ => isCompatibleWith_iff_toWire, equivalence_isCompatibleWith, fun _ _ _ _ => rfl,
    fun _ _ => check_ofWire_iff, fun _ => check_received_iff⟩

example : ofWire [0, 0, 0, 1, 0, 0, 1, 0, 0, 0, 0, 2, 9] = .ok ⟨1, 256, 2, none⟩ := rfl

end RemoteAgent.Version
