import RemoteAgent.Proofs.Dial.Probe
import RemoteAgent.Proofs.History
import RemoteAgent.Proofs.Transport.Watched

/-! # Probing call by call

Each of the two questions is announced by its message. It is answered only by a process that ends
well and says on its output what the question was about; nothing else that the process writes
counts.
-/

namespace RemoteAgent.Platform

open Effect Watched

variable {ω κ : Type}

section Questions

variable (t : Transport ω κ) (line : String) (read : String → Except ProbeError Platform) (w : ω)

/-- A command line is run to its end and succeeds, with this output. -/
def Prints (output : List UInt8) (w' : ω) : Prop :=
  ∃ prepared v process, (t.command line).outcome w = (.ok prepared, v) ∧
    (t.start prepared).outcome v = (.ok process, w') ∧
    process.finalStatus = .exited 0 ∧ process.output [] true = output

/-- The ways in which a command line gets no answer, and the reason for each. -/
inductive Fails : ProbeError → ω → Prop where

  | unprepared {cause : TransportError} {w' : ω} :
      (t.command line).outcome w = (.error cause, w') → Fails (.transport cause) w'

  | unstarted {prepared : κ} {cause : IoError} {v w' : ω} :
      (t.command line).outcome w = (.ok prepared, v) →
      (t.start prepared).outcome v = (.error cause, w') → Fails (.transport (.io cause)) w'

  | exited {prepared : κ} {process : Process} {code : Nat} {v w' : ω} :
      (t.command line).outcome w = (.ok prepared, v) →
      (t.start prepared).outcome v = (.ok process, w') →
      process.finalStatus = .exited code → code ≠ 0 →
      Fails (.transport (.commandFailed code
        (Text.trim (Text.decodeLossy process.errorOutput.flatten)))) w'

  | signaled {prepared : κ} {process : Process} {signal : Nat} {coreDumped : Bool} {v w' : ω} :
      (t.command line).outcome w = (.ok prepared, v) →
      (t.start prepared).outcome v = (.ok process, w') →
      process.finalStatus = .signaled signal coreDumped →
      Fails (.transport (.commandFailed (-1)
        (Text.trim (Text.decodeLossy process.errorOutput.flatten)))) w'

  | unreadable {output : List UInt8} {cause : ProbeError} {w' : ω} :
      Prints t line w output w' → read (Text.decodeLossy output) = .error cause → Fails cause w'

variable {t line read w} {w' : ω} {output : List UInt8} {platform : Platform} {cause : ProbeError}

theorem outcome_ask_of_started {prepared : κ} {started : Except IoError Process} {v : ω}
    (hcommand : (t.command line).outcome w = (.ok prepared, v))
    (hstart : (t.start prepared).outcome v = (started, w')) :
    (ask t line read).outcome w = ((ended started).mapError .transport >>= read, w') := by
  rw [outcome_ask, Transport.run, outcome_bind_ok hcommand, outcome_runToEnd, hstart]

theorem ended_of_exited_zero {process : Process} (h : process.finalStatus = .exited 0) :
    ended (.ok process) = .ok (Text.decodeLossy (process.output [] true)) := by
  have hsuccess : process.finalStatus.isSuccess = true := by rw [h]; rfl
  exact if_pos hsuccess

theorem ended_of_not_isSuccess {process : Process} (h : process.finalStatus.isSuccess = false) :
    ended (.ok process) = .error (.commandFailed (process.finalStatus.code?.getD (-1))
      (Text.trim (Text.decodeLossy process.errorOutput.flatten))) := by
  have hfailure : ¬ process.finalStatus.isSuccess = true := by simp [h]
  exact if_neg hfailure

theorem outcome_ask_of_prints (h : Prints t line w output w') :
    (ask t line read).outcome w = (read (Text.decodeLossy output), w') := by
  obtain ⟨prepared, v, process, hcommand, hstart, hstatus, rfl⟩ := h
  rw [outcome_ask_of_started hcommand hstart, ended_of_exited_zero hstatus]
  rfl

theorem Fails.outcome_ask (h : Fails t line read w cause w') :
    (ask t line read).outcome w = (.error cause, w') := by
  cases h with
  | unprepared hcommand =>
    rw [Platform.outcome_ask, Transport.run, outcome_bind_error hcommand]
    rfl
  | unstarted hcommand hstart =>
    rw [outcome_ask_of_started hcommand hstart]
    rfl
  | exited hcommand hstart hstatus hcode =>
    rw [outcome_ask_of_started hcommand hstart,
      ended_of_not_isSuccess (by simp [hstatus, ExitStatus.isSuccess, hcode]), hstatus]
    rfl
  | signaled hcommand hstart hstatus =>
    rw [outcome_ask_of_started hcommand hstart,
      ended_of_not_isSuccess (by simp [hstatus, ExitStatus.isSuccess]), hstatus]
    rfl
  | unreadable hprints hread => rw [outcome_ask_of_prints hprints, hread]

/-- A command line is either run to a good end or fails before its output is read. -/
theorem prints_or_fails (t : Transport ω κ) (line : String)
    (read : String → Except ProbeError Platform) (w : ω) :
    (∃ output w', Prints t line w output w') ∨ ∃ cause w', Fails t line read w cause w' := by
  rcases hcommand : (t.command line).outcome w with ⟨cause | prepared, v⟩
  · exact .inr ⟨_, _, .unprepared hcommand⟩
  rcases hstart : (t.start prepared).outcome v with ⟨cause | process, w'⟩
  · exact .inr ⟨_, _, .unstarted hcommand hstart⟩
  rcases hstatus : process.finalStatus with code | ⟨signal, coreDumped⟩
  · by_cases hcode : code = 0
    · subst hcode
      exact .inl ⟨_, _, _, _, _, hcommand, hstart, hstatus, rfl⟩
    · exact .inr ⟨_, _, .exited hcommand hstart hstatus hcode⟩
  · exact .inr ⟨_, _, .signaled hcommand hstart hstatus⟩

theorem outcome_ask_eq_ok_iff :
    (ask t line read).outcome w = (.ok platform, w') ↔
      ∃ output, Prints t line w output w' ∧ read (Text.decodeLossy output) = .ok platform := by
  constructor
  · intro h
    rcases prints_or_fails t line read w with ⟨output, v, hprints⟩ | ⟨cause, v, hfails⟩
    · rw [outcome_ask_of_prints hprints] at h
      obtain ⟨hread, rfl⟩ := Prod.mk.inj h
      exact ⟨output, hprints, hread⟩
    · rw [hfails.outcome_ask] at h
      cases h
  · rintro ⟨output, hprints, hread⟩
    rw [outcome_ask_of_prints hprints, hread]

theorem outcome_ask_eq_error_iff :
    (ask t line read).outcome w = (.error cause, w') ↔ Fails t line read w cause w' := by
  constructor
  · intro h
    rcases prints_or_fails t line read w with ⟨output, v, hprints⟩ | ⟨reason, v, hfails⟩
    · rw [outcome_ask_of_prints hprints] at h
      obtain ⟨hread, rfl⟩ := Prod.mk.inj h
      exact .unreadable hprints hread
    · rw [hfails.outcome_ask] at h
      cases h
      exact hfails
  · exact Fails.outcome_ask

/-- Whether an error is the reason why one question got no answer. -/
def IsReason : ProbeError → Prop
  | .notify _ | .exhausted .. => False
  | .transport _ | .malformedOutput _ | .unrecognizedOs _ | .unrecognizedArch _ => True

theorem Fails.isReason (h : Fails t line read w cause w')
    (hread : ∀ output reason, read output = .error reason → IsReason reason) : IsReason cause := by
  cases h with
  | unprepared | unstarted | exited | signaled => trivial
  | unreadable _ hr => exact hread _ _ hr

end Questions

theorem isReason_of_ofUname {output : String} {cause : ProbeError}
    (h : ofUname output = .error cause) : IsReason cause := by
  cases ofUname_eq_iff.1 h with
  | malformed | unrecognizedOs | unrecognizedArch => trivial

theorem isReason_of_ofWindowsEnvironment {output : String} {cause : ProbeError}
    (h : ofWindowsEnvironment output = .error cause) : IsReason cause := by
  unfold ofWindowsEnvironment at h
  split at h
  · cases h
    trivial
  · cases h
    trivial
  · split at h <;> cases h <;> trivial

section Results

variable (t : Transport ω κ) (p : Prompter ω) (w : ω)

/-- The far side has been announced and asked as a POSIX one and has not answered. -/
def PosixFails (cause : ProbeError) (w' : ω) : Prop :=
  ∃ v, (p.message posixMessage).outcome w = (.ok (), v) ∧ Fails t posixLine ofUname v cause w'

/-- The ways probing goes: what it comes to, and the world after it. -/
inductive Probes : Except ProbeError Platform → ω → Prop where

  | untold {cause : PromptError} {w' : ω} :
      (p.message posixMessage).outcome w = (.error cause, w') →
      Probes (.error (.notify cause)) w'

  | posix {platform : Platform} {output : List UInt8} {v w' : ω} :
      (p.message posixMessage).outcome w = (.ok (), v) → Prints t posixLine v output w' →
      ofUname (Text.decodeLossy output) = .ok platform → Probes (.ok platform) w'

  | untoldAgain {posix : ProbeError} {cause : PromptError} {v w' : ω} :
      PosixFails t p w posix v → (p.message windowsMessage).outcome v = (.error cause, w') →
      Probes (.error (.notify cause)) w'

  | windows {posix : ProbeError} {platform : Platform} {output : List UInt8} {v v' w' : ω} :
      PosixFails t p w posix v → (p.message windowsMessage).outcome v = (.ok (), v') →
      Prints t windowsLine v' output w' →
      ofWindowsEnvironment (Text.decodeLossy output) = .ok platform → Probes (.ok platform) w'

  | exhausted {posix windows : ProbeError} {v v' w' : ω} :
      PosixFails t p w posix v → (p.message windowsMessage).outcome v = (.ok (), v') →
      Fails t windowsLine ofWindowsEnvironment v' windows w' →
      Probes (.error (.exhausted posix windows)) w'

theorem probes :
    Probes t p w ((probe t p).outcome w).1 ((probe t p).outcome w).2 := by
  simp only [probe, outcome_bind, outcome_mapError, outcome_attempt]
  rcases hm : (p.message posixMessage).outcome w with ⟨cause | _, v⟩
  · exact .untold hm
  simp only [mapError_ok]
  rcases ha : (ask t posixLine ofUname).outcome v with ⟨posix | platform, v'⟩
  case ok.ok =>
    obtain ⟨output, hprints, hread⟩ := outcome_ask_eq_ok_iff.1 ha
    exact .posix hm hprints hread
  have hposix : PosixFails t p w posix v' := ⟨v, hm, outcome_ask_eq_error_iff.1 ha⟩
  simp only [outcome_bind, outcome_mapError, outcome_attempt]
  rcases hm' : (p.message windowsMessage).outcome v' with ⟨cause | _, v''⟩
  · exact .untoldAgain hposix hm'
  simp only [mapError_ok]
  rcases ha' : (ask t windowsLine ofWindowsEnvironment).outcome v'' with ⟨windows | platform, w'⟩
  · exact .exhausted hposix hm' (outcome_ask_eq_error_iff.1 ha')
  · obtain ⟨output, hprints, hread⟩ := outcome_ask_eq_ok_iff.1 ha'
    exact .windows hposix hm' hprints hread

variable {t p w} {w' : ω} {result : Except ProbeError Platform}

/-- The world leaves no choice of the way probing goes. -/
theorem Probes.outcome_probe (h : Probes t p w result w') :
    (probe t p).outcome w = (result, w') := by
  cases h with
  | untold hm => simp only [probe, outcome_bind, outcome_mapError, hm, mapError_error]
  | posix hm hprints hread =>
    simp only [probe, outcome_bind, outcome_mapError, outcome_attempt, hm, mapError_ok,
      outcome_ask_of_prints hprints, hread, outcome_pure]
  | untoldAgain hposix hm' =>
    obtain ⟨u, hm, hfails⟩ := hposix
    simp only [probe, outcome_bind, outcome_mapError, outcome_attempt, hm, hm', mapError_ok,
      mapError_error, hfails.outcome_ask]
  | windows hposix hm' hprints hread =>
    obtain ⟨u, hm, hfails⟩ := hposix
    simp only [probe, outcome_bind, outcome_mapError, outcome_attempt, hm, hm', mapError_ok,
      hfails.outcome_ask, outcome_ask_of_prints hprints, hread, outcome_pure]
  | exhausted hposix hm' hfails' =>
    obtain ⟨u, hm, hfails⟩ := hposix
    simp only [probe, outcome_bind, outcome_mapError, outcome_attempt, hm, hm', mapError_ok,
      hfails.outcome_ask, hfails'.outcome_ask, outcome_throw]

theorem outcome_probe_eq_iff : (probe t p).outcome w = (result, w') ↔ Probes t p w result w' := by
  constructor
  · intro h
    have hprobes := probes t p w
    rwa [h] at hprobes
  · exact Probes.outcome_probe

end Results

section Record

/-- Whether a call may come after the ones before it: a message only if none before it was lost, a
command line only right after the message that announces it has been delivered, and a start only
right after the command line that it starts. -/
def MayFollow (before : List (Call κ)) : Call κ → Prop
  | .message .. => ∀ text cause, .message text (.error cause) ∉ before
  | .command line _ =>
    line = posixLine ∧ before.getLast? = some (.message posixMessage (.ok ())) ∨
      line = windowsLine ∧ before.getLast? = some (.message windowsMessage (.ok ()))
  | .start prepared _ => ∃ line, before.getLast? = some (.command line (.ok prepared))
  | .prompt .. | .copy .. => False

variable {line : String} {calls : List (Call κ)}

theorem follows_runs (before : List (Call κ)) (h : Runs line calls)
    (hline : ∀ result, MayFollow before (.command line result)) :
    Follows (fun later => MayFollow (before ++ later)) calls := by
  cases h with
  | unprepared => simpa using hline _
  | started =>
    simp only [follows_cons, follows_nil, List.append_nil]
    exact ⟨hline _, ⟨line, by simp⟩, trivial⟩

/-- The calls of a probing. The second question is asked only if the first got no answer. -/
inductive ProbingCalls (unanswered : Prop) : List (Call κ) → Prop where

  | untold {cause : PromptError} :
      ProbingCalls unanswered [.message posixMessage (.error cause)]

  | posix {asked : List (Call κ)} : Runs posixLine asked →
      ProbingCalls unanswered (.message posixMessage (.ok ()) :: asked)

  | untoldAgain {asked : List (Call κ)} {cause : PromptError} : unanswered →
      Runs posixLine asked →
      ProbingCalls unanswered
        (.message posixMessage (.ok ()) :: (asked ++ [.message windowsMessage (.error cause)]))

  | windows {asked asked' : List (Call κ)} : unanswered → Runs posixLine asked →
      Runs windowsLine asked' →
      ProbingCalls unanswered
        (.message posixMessage (.ok ()) :: (asked ++ .message windowsMessage (.ok ()) :: asked'))

namespace ProbingCalls

variable {unanswered : Prop}

theorem events (h : ProbingCalls unanswered calls) :
    calls.filterMap Call.event? <+: Dial.probeEvents := by
  cases h with
  | untold => exact ⟨_, rfl⟩
  | posix h =>
    simp only [List.filterMap_cons, Call.event?, h.events]
    exact ⟨_, rfl⟩
  | untoldAgain _ h =>
    simp only [List.filterMap_cons, List.filterMap_append, Call.event?, h.events]
    exact ⟨_, rfl⟩
  | windows _ h h' =>
    simp only [List.filterMap_cons, List.filterMap_append, Call.event?, h.events, h'.events]
    exact ⟨_, rfl⟩

theorem follows (h : ProbingCalls unanswered calls) : Follows MayFollow calls := by
  have hlost : ∀ {asked : List (Call κ)}, Runs posixLine asked → ∀ text cause,
      .message text (.error cause) ∉ .message posixMessage (.ok ()) :: asked := by
    intro asked hruns text cause
    simp [hruns.message_notMem]
  cases h with
  | untold => simp [MayFollow]
  | posix h =>
    rw [follows_cons]
    exact ⟨nofun, follows_runs [_] h fun _ => .inl ⟨rfl, rfl⟩⟩
  | untoldAgain _ h =>
    rw [follows_cons, follows_append, follows_cons]
    refine ⟨nofun, follows_runs [_] h fun _ => .inl ⟨rfl, rfl⟩, ?_, follows_nil⟩
    rw [List.append_nil]
    exact hlost h
  | @windows asked _ _ h h' =>
    rw [follows_cons, follows_append, follows_cons]
    refine ⟨nofun, follows_runs [_] h fun _ => .inl ⟨rfl, rfl⟩, ?_, ?_⟩
    · rw [List.append_nil]
      exact hlost h
    · have hlast : ∀ result, MayFollow
          (.message posixMessage (.ok ()) :: (asked ++ [.message windowsMessage (.ok ())]))
          (.command windowsLine result) := fun _ => .inr ⟨rfl, by simp [List.getLast?_cons]⟩
      simpa using follows_runs _ h' hlast

theorem unanswered_of_mem (h : ProbingCalls unanswered calls) {result : Except TransportError κ}
    (hmem : .command windowsLine result ∈ calls) : unanswered := by
  cases h with
  | untold => simp at hmem
  | posix h => cases h <;> simp [posixLine, windowsLine] at hmem
  | untoldAgain h | windows h => exact h

end ProbingCalls

theorem outcome_ask_watched (t : Transport ω κ) (line : String)
    (read : String → Except ProbeError Platform) (w : Watched ω κ) :
    ∃ calls, Runs line calls ∧
      (ask (transport t) line read).outcome w =
        (((ask t line read).outcome w.outer).1,
          w.after ((ask t line read).outcome w.outer).2 calls) := by
  obtain ⟨calls, hruns, h⟩ := outcome_run t line w
  exact ⟨calls, hruns, by simp only [outcome_ask, h]⟩

/-- Probing is not changed by being recorded. -/
theorem outcome_probe_watched (t : Transport ω κ) (p : Prompter ω) (w : Watched ω κ) :
    ∃ calls, ProbingCalls (∃ posix v, PosixFails t p w.outer posix v) calls ∧
      (probe (transport t) (prompter p)).outcome w =
        (((probe t p).outcome w.outer).1, w.after ((probe t p).outcome w.outer).2 calls) := by
  simp only [probe, prompter, outcome_bind, outcome_mapError, outcome_attempt, outcome_record]
  rcases hm : (p.message posixMessage).outcome w.outer with ⟨cause | _, v⟩
  · exact ⟨_, .untold, rfl⟩
  simp only [mapError_ok]
  obtain ⟨asked, hruns, ha⟩ := outcome_ask_watched t posixLine ofUname
    (w.after v [.message posixMessage (.ok ())])
  simp only [outer_after] at ha
  rw [ha]
  rcases hask : (ask t posixLine ofUname).outcome v with ⟨posix | platform, v'⟩
  case ok.ok => exact ⟨_, .posix hruns, by simp⟩
  have hposix : ∃ posix v, PosixFails t p w.outer posix v :=
    ⟨posix, v', v, hm, outcome_ask_eq_error_iff.1 hask⟩
  simp only [outcome_bind, outcome_mapError, outcome_attempt, outcome_record, outer_after,
    after_after]
  rcases hm' : (p.message windowsMessage).outcome v' with ⟨cause | _, v''⟩
  · exact ⟨.message posixMessage (.ok ()) :: (asked ++ [.message windowsMessage (.error cause)]),
      .untoldAgain hposix hruns, by simp⟩
  simp only [mapError_ok]
  obtain ⟨asked', hruns', ha'⟩ := outcome_ask_watched t windowsLine ofWindowsEnvironment
    (w.after v'' (.message posixMessage (.ok ()) :: (asked ++ [.message windowsMessage (.ok ())])))
  simp only [outer_after] at ha'
  refine ⟨_, .windows hposix hruns hruns', ?_⟩
  simp only [List.cons_append, List.nil_append]
  rw [ha']
  rcases (ask t windowsLine ofWindowsEnvironment).outcome v'' with ⟨windows | platform, w'⟩ <;>
    simp

end Record

/-- Probing delivers each message before it runs the command line that the message announces, runs
each of the two at most once and nothing else, and runs the second only if the first got no answer.
It finds a platform exactly if the messages that it needs are delivered and one of the two commands,
the second only after the first has failed, ends with code 0 and an output that names the platform.
If both fail, it tells why each of them did. A message that is not delivered ends it. -/
theorem probe_answers (t : Transport ω κ) (p : Prompter ω) (w : ω) :
    (∃ calls, (probe (transport t) (prompter p)).outcome ⟨w, []⟩ =
        (((probe t p).outcome w).1, ⟨((probe t p).outcome w).2, calls⟩) ∧
      calls.filterMap Call.event? <+: Dial.probeEvents ∧ Follows MayFollow calls ∧
      ∀ result, .command windowsLine result ∈ calls → ∃ posix v, PosixFails t p w posix v) ∧
    (∀ platform w', (probe t p).outcome w = (.ok platform, w') ↔
      (∃ v output, (p.message posixMessage).outcome w = (.ok (), v) ∧
        Prints t posixLine v output w' ∧ ofUname (Text.decodeLossy output) = .ok platform ∧
        platform.posix = true) ∨
      ∃ posix v v' output, PosixFails t p w posix v ∧
        (p.message windowsMessage).outcome v = (.ok (), v') ∧
        Prints t windowsLine v' output w' ∧
        ofWindowsEnvironment (Text.decodeLossy output) = .ok platform ∧
        platform.posix = false ∧ platform.os = "windows") ∧
    (∀ posix windows w', (probe t p).outcome w = (.error (.exhausted posix windows), w') ↔
      ∃ v v', PosixFails t p w posix v ∧ (p.message windowsMessage).outcome v = (.ok (), v') ∧
        Fails t windowsLine ofWindowsEnvironment v' windows w' ∧
        IsReason posix ∧ IsReason windows) ∧
    (∀ cause w', (probe t p).outcome w = (.error (.notify cause), w') ↔
      (p.message posixMessage).outcome w = (.error cause, w') ∨
      ∃ posix v, PosixFails t p w posix v ∧
        (p.message windowsMessage).outcome v = (.error cause, w')) ∧
    ∀ cause w', (probe t p).outcome w = (.error cause, w') → ¬ IsReason cause := by
  simp only [outcome_probe_eq_iff]
  refine ⟨?_, fun platform w' => ⟨?_, ?_⟩, fun posix windows w' => ⟨?_, ?_⟩,
    fun cause w' => ⟨?_, ?_⟩, fun cause w' => ?_⟩
  · obtain ⟨calls, hcalls, h⟩ := outcome_probe_watched t p ⟨w, []⟩
    exact ⟨calls, outcome_probe_eq_iff.1 h, hcalls.events, hcalls.follows,
      fun _ => hcalls.unanswered_of_mem⟩
  · intro h
    cases h with
    | posix hm hprints hread => exact .inl ⟨_, _, hm, hprints, hread, posix_of_ofUname hread⟩
    | windows hposix hm hprints hread =>
      exact .inr ⟨_, _, _, _, hposix, hm, hprints, hread, of_ofWindowsEnvironment hread⟩
  · rintro (⟨v, output, hm, hprints, hread, -⟩ |
      ⟨posix, v, v', output, hposix, hm, hprints, hread, -⟩)
    · exact .posix hm hprints hread
    · exact .windows hposix hm hprints hread
  · intro h
    cases h with
    | exhausted hposix hm hwindows =>
      obtain ⟨u, -, hfails⟩ := id hposix
      exact ⟨_, _, hposix, hm, hwindows, hfails.isReason fun _ _ => isReason_of_ofUname,
        hwindows.isReason fun _ _ => isReason_of_ofWindowsEnvironment⟩
  · rintro ⟨v, v', hposix, hm, hwindows, -, -⟩
    exact .exhausted hposix hm hwindows
  · intro h
    cases h with
    | untold hm => exact .inl hm
    | untoldAgain hposix hm => exact .inr ⟨_, _, hposix, hm⟩
  · rintro (hm | ⟨posix, v, hposix, hm⟩)
    · exact .untold hm
    · exact .untoldAgain hposix hm
  · intro h
    cases h <;> exact id

end RemoteAgent.Platform
