import RemoteAgent.Proofs.Handshake.Sides
import RemoteAgent.Proofs.Stream.Run
import RemoteAgent.Proofs.Stream.Signals

/-! # Receiving versions one after the other

However a stream is cut into pieces and delayed, receiving a version takes the same bytes from it as
receiving it byte by byte: the next twelve, or those that come before an end or a failure, together
with that. So what many versions come to depends on nothing but the signals of the stream.
-/

namespace RemoteAgent

open Version StreamMachine Signal

namespace Receiving

variable {received bytes : List UInt8} {rest signals : List Signal}

/-- What receiving comes to when it is given one signal at a time, and what is left after it. -/
def onSignals : Receiving → List Signal → Except ProtocolError Version × List Signal
  | .done result, signals => (result, signals)
  | .reading received, [] => (.error (.truncated received.length wireSize), [])
  | .reading received, .byte b :: rest => onSignals (afterRead received (.ok [b])) rest
  | .reading received, .ended :: rest => onSignals (afterRead received (.ok [])) rest
  | .reading received, .failure cause :: rest => onSignals (afterRead received (.error cause)) rest

theorem onSignals_done (result : Except ProtocolError Version) (signals : List Signal) :
    onSignals (.done result) signals = (result, signals) := by
  rw [onSignals]

theorem onSignals_ended :
    onSignals (.reading received) (.ended :: rest) =
      (.error (.truncated received.length wireSize), rest) := by
  rw [onSignals, afterRead, onSignals_done]

theorem onSignals_failure {cause : IoError} :
    onSignals (.reading received) (.failure cause :: rest) = (.error (.io cause), rest) := by
  rw [onSignals, afterRead, onSignals_done]

/-- Fewer bytes have arrived than a version has. -/
def IsShort (m : Receiving) : Prop :=
  ∀ received, m = .reading received → received.length < wireSize

theorem isShort_afterRead (received : List UInt8) (outcome : Except IoError (List UInt8)) :
    (afterRead received outcome).IsShort := by
  intro more hmore
  unfold afterRead at hmore
  split at hmore
  · cases hmore
  · split at hmore
    next hlt =>
      cases hmore
      exact hlt
    · cases hmore
  · cases hmore

theorem afterRead_append {more : List UInt8} (hb : bytes ≠ []) (hm : more ≠ []) :
    afterRead (received ++ bytes) (.ok more) = afterRead received (.ok (bytes ++ more)) := by
  have hne : bytes ++ more ≠ [] := fun h => hb (List.append_eq_nil_iff.1 h).1
  rcases Nat.lt_or_ge (received ++ bytes ++ more).length wireSize with hlt | hge
  · rw [afterRead_of_lt hm hlt, afterRead_of_lt hne (by rwa [← List.append_assoc]),
      List.append_assoc]
  · rw [afterRead_of_le hm hge, afterRead_of_le hne (by rwa [← List.append_assoc]),
      List.append_assoc]

/-- Bytes that come together might as well have come one by one. -/
theorem onSignals_bytes (hb : bytes ≠ []) (hle : received.length + bytes.length ≤ wireSize) :
    onSignals (.reading received) (bytes.map .byte ++ rest) =
      onSignals (afterRead received (.ok bytes)) rest := by
  induction bytes generalizing received with
  | nil => exact absurd rfl hb
  | cons b bytes ih =>
    rw [List.map_cons, List.cons_append, onSignals]
    by_cases hnil : bytes = []
    · subst hnil
      rfl
    · have hpos := List.length_pos_iff.2 hnil
      rw [List.length_cons] at hle
      have hlength : (received ++ [b]).length = received.length + 1 := by simp
      rw [afterRead_of_lt (List.cons_ne_nil b []) (by omega), ih hnil (by omega),
        afterRead_append (List.cons_ne_nil b []) hnil, List.singleton_append]

theorem onSignals_afterRead {outcome : Except IoError (List UInt8)}
    (h : received.length < wireSize)
    (hg : Gives (wireSize - received.length) signals outcome rest) :
    onSignals (afterRead received outcome) rest = onSignals (.reading received) signals := by
  cases hg with
  | bytes hb hle => exact (onSignals_bytes hb (by omega)).symm
  | ended | failed | exhausted => rfl

/-- A run on a stream comes to what the signals of the stream come to. -/
theorem run_eq_onSignals (m : Receiving) (hm : m.IsShort) (s : Script) :
    ((run m s).1, (run m s).2.signals) = m.onSignals s.signals := by
  refine run_induction
    (I := fun (n : Receiving) (u : Script) =>
      n.IsShort ∧ n.onSignals u.signals = m.onSignals s.signals)
    (Q := fun result u => (result, u.signals) = m.onSignals s.signals)
    ?_ ?_ ?_ ?_ m s ⟨hm, rfl⟩
  · rintro (received | result) u _ ⟨⟩ ⟨-, h⟩
    rwa [onSignals_done] at h
  · rintro (_ | _) u _ _ ⟨⟩
  · rintro (_ | _) u _ ⟨⟩
  · rintro (received | _) u _ _ ⟨⟩ ⟨hshort, h⟩
    have hlt := hshort received rfl
    exact ⟨isShort_afterRead _ _,
      (onSignals_afterRead hlt (Script.gives_read (Nat.sub_pos_of_lt hlt) u)).trans h⟩

/-- What receiving a version from these signals comes to, and which of them it leaves: the next
twelve bytes make the version, unless an end or a failure comes before they are there. -/
inductive Receives : List Signal → Except ProtocolError Version → List Signal → Prop where

  | version {bytes : List UInt8} {rest : List Signal} {v : Version} :
      bytes.length = 12 → ofWire bytes = .ok v →
      Receives (bytes.map .byte ++ rest) (.ok v) rest

  | ended {bytes : List UInt8} {rest : List Signal} : bytes.length < 12 →
      Receives (bytes.map .byte ++ .ended :: rest) (.error (.truncated bytes.length 12)) rest

  | failed {bytes : List UInt8} {cause : IoError} {rest : List Signal} : bytes.length < 12 →
      Receives (bytes.map .byte ++ .failure cause :: rest) (.error (.io cause)) rest

  | exhausted {bytes : List UInt8} : bytes.length < 12 →
      Receives (bytes.map .byte) (.error (.truncated bytes.length 12)) []

theorem receives_onSignals (h : received.length < wireSize) (signals : List Signal) :
    Receives (received.map .byte ++ signals) (onSignals (.reading received) signals).1
      (onSignals (.reading received) signals).2 := by
  induction signals generalizing received with
  | nil =>
    rw [List.append_nil]
    exact .exhausted h
  | cons signal rest ih =>
    cases signal with
    | byte b =>
      have hsplit :
          received.map .byte ++ .byte b :: rest = (received ++ [b]).map .byte ++ rest := by
        simp
      rw [onSignals, hsplit]
      rcases Nat.lt_or_ge (received ++ [b]).length wireSize with hlt | hge
      · rw [afterRead_of_lt (List.cons_ne_nil b []) hlt]
        exact ih hlt
      · rw [afterRead_of_le (List.cons_ne_nil b []) hge]
        have hwhole : (received ++ [b]).length = 12 := by
          rw [wireSize] at h hge
          rw [List.length_append, List.length_singleton] at hge ⊢
          omega
        obtain ⟨v, hv, -⟩ := exists_ofWire hge
        rw [hv, onSignals_done]
        exact .version hwhole hv
    | ended =>
      rw [onSignals_ended]
      exact .ended h
    | failure cause =>
      rw [onSignals_failure]
      exact .failed h

theorem onSignals_start (h : bytes.length < wireSize) :
    onSignals .start (bytes.map .byte ++ rest) = onSignals (.reading bytes) rest := by
  by_cases hnil : bytes = []
  · subst hnil
    rfl
  · rw [start, onSignals_bytes hnil (by simpa using Nat.le_of_lt h),
      afterRead_of_lt hnil (by simpa using h), List.nil_append]

/-- Signals leave no choice of what is received from them. -/
theorem onSignals_of_receives {result : Except ProtocolError Version}
    (h : Receives signals result rest) : onSignals .start signals = (result, rest) := by
  cases h with
  | @version bytes _ v hlength hv =>
    have hsize : bytes.length = wireSize := hlength
    have hne : bytes ≠ [] := by
      rintro rfl
      cases hlength
    rw [start, onSignals_bytes hne (by simp [hsize]), afterRead_of_le hne (by simp [hsize]),
      List.nil_append, hv, onSignals_done]
  | ended hshort =>
    rw [onSignals_start hshort, onSignals_ended]
    rfl
  | failed hshort => rw [onSignals_start hshort, onSignals_failure]
  | @exhausted bytes hshort =>
    have h := @onSignals_start _ [] hshort
    rwa [List.append_nil] at h

theorem isShort_start : start.IsShort := by
  rintro _ ⟨⟩
  decide

end Receiving

open Receiving

section Many

/-- Receives so many versions from one stream. -/
def receiveMany : Nat → Script → List (Except ProtocolError Version) × Script
  | 0, s => ([], s)
  | n + 1, s =>
    let received := run Receiving.start s
    let others := receiveMany n received.2
    (received.1 :: others.1, others.2)

/-- Every version is received from the signals that the one before it has left. -/
inductive ReceivesAll :
    List Signal → List (Except ProtocolError Version) → List Signal → Prop where

  | nil (signals : List Signal) : ReceivesAll signals [] signals

  | cons {signals rest rest' : List Signal} {result : Except ProtocolError Version}
      {results : List (Except ProtocolError Version)} :
      Receives signals result rest → ReceivesAll rest results rest' →
      ReceivesAll signals (result :: results) rest'

theorem receives_run (s : Script) :
    Receives s.signals (run Receiving.start s).1 (run Receiving.start s).2.signals := by
  have h := receives_onSignals (show [].length < wireSize by decide) s.signals
  rw [← start, ← run_eq_onSignals _ isShort_start] at h
  exact h

theorem receivesAll_receiveMany (n : Nat) (s : Script) :
    ReceivesAll s.signals (receiveMany n s).1 (receiveMany n s).2.signals := by
  induction n generalizing s with
  | zero => exact .nil _
  | succ n ih => exact .cons (receives_run s) (ih _)

theorem length_receiveMany (n : Nat) (s : Script) : (receiveMany n s).1.length = n := by
  induction n generalizing s with
  | zero => rfl
  | succ n ih => exact congrArg Nat.succ (ih _)

theorem receiveMany_of_receivesAll {s : Script} {signals rest : List Signal}
    {results : List (Except ProtocolError Version)} (h : ReceivesAll signals results rest)
    (hs : s.signals = signals) :
    (receiveMany results.length s).1 = results ∧
      (receiveMany results.length s).2.signals = rest := by
  induction h generalizing s with
  | nil => exact ⟨rfl, hs⟩
  | cons hfirst _ ih =>
    have hrun := run_eq_onSignals _ isShort_start s
    rw [hs, onSignals_of_receives hfirst] at hrun
    obtain ⟨hresult, hrest⟩ := Prod.mk.inj hrun
    obtain ⟨hresults, hlast⟩ := ih hrest
    exact ⟨congrArg₂ List.cons hresult hresults, hlast⟩

theorem receivesAll_toWire (versions : List Version) (rest : List Signal) :
    ReceivesAll ((versions.flatMap toWire).map .byte ++ rest)
      (versions.map fun v => .ok v.untagged) rest := by
  induction versions with
  | nil => exact .nil _
  | cons v versions ih =>
    rw [List.flatMap_cons, List.map_append, List.append_assoc]
    exact .cons (.version (length_toWire v) (ofWire_toWire v)) ih

/-- Receiving one version after the other comes to what the signals of the stream say and to
nothing else, however they are cut and delayed. So it gives back the versions whose wire forms stand
one after the other in the stream, and leaves what follows them. -/
theorem receiveMany_signals (n : Nat) (s : Script) :
    (∀ results rest,
      ((receiveMany n s).1 = results ∧ (receiveMany n s).2.signals = rest) ↔
        results.length = n ∧ ReceivesAll s.signals results rest) ∧
    (∀ u : Script, u.signals = s.signals →
      (receiveMany n u).1 = (receiveMany n s).1 ∧
        (receiveMany n u).2.signals = (receiveMany n s).2.signals) ∧
    ∀ (versions : List Version) (rest : List Signal), versions.length = n →
      s.signals = (versions.flatMap toWire).map .byte ++ rest →
      (receiveMany n s).1 = versions.map (fun v => .ok v.untagged) ∧
        (receiveMany n s).2.signals = rest := by
  refine ⟨fun results rest => ⟨?_, ?_⟩, fun u hu => ?_, fun versions rest hn hs => ?_⟩
  · rintro ⟨rfl, rfl⟩
    exact ⟨length_receiveMany n s, receivesAll_receiveMany n s⟩
  · rintro ⟨rfl, h⟩
    exact receiveMany_of_receivesAll h rfl
  · have h := receiveMany_of_receivesAll (receivesAll_receiveMany n s) hu
    rwa [length_receiveMany] at h
  · have h := receiveMany_of_receivesAll (receivesAll_toWire versions rest) hs
    rwa [List.length_map, hn] at h

end Many

end RemoteAgent
