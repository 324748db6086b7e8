import RemoteAgent.Proofs.Connection.Bytes
import RemoteAgent.Proofs.Dial.Agents
import RemoteAgent.Proofs.Handshake.Sides
import RemoteAgent.Proofs.Version.Wire

/-! # What follows the greeting

A greeting reads and writes one version and no more, though the pipe may have handed over more than
that. So the caller of a dial finds what the agent says after its version, from the first byte on,
and the agent finds what the caller writes.
-/

namespace RemoteAgent.Dial

open Connection StreamMachine Version

section Greetings

variable {own : Version} {c : Connection} {received rest : List UInt8}

/-- What has been read from an agent and given to it while it is being greeted. -/
inductive Greets (own : Version) : Greeting → Connection → Prop where

  | receiving {received : List UInt8} {c : Connection} :
      received.length < wireSize → c.HasRead received → c.given = [] →
      Greets own (.receiving own (.reading received)) c

  | sending {rest : List UInt8} {c : Connection} :
      c.HasRead own.toWire → c.given ++ rest = own.toWire → rest ≠ [] →
      Greets own (.sending (.writing rest)) c

  | flushing {c : Connection} :
      c.HasRead own.toWire → c.given = own.toWire → Greets own (.sending .flushing) c

  | accepted {c : Connection} :
      c.HasRead own.toWire → c.given = own.toWire → Greets own (.done (.ok ())) c

  | failed {cause : DialError} {c : Connection} : Greets own (.done (.error cause)) c

theorem greets_new (own : Version) (process : Process) (delay : Duration) :
    Greets own (.start own) (.new process delay) :=
  .receiving (by decide) (hasRead_new process delay) rfl

/-- The version that ends the reading is compatible only if its bytes are those of one's own. -/
theorem greets_afterRead (hlength : received.length < wireSize) (hread : c.HasRead received)
    (hgiven : c.given = []) :
    Greets own
      (.afterReceiving own
        (.afterRead received (c.read (wireSize - received.length)).1))
      (c.read (wireSize - received.length)).2 := by
  obtain ⟨more, hmore⟩ := exists_read (wireSize - received.length) c
  have hread' := hread.read hmore
  have hgiven' := (given_read (wireSize - received.length) c).trans hgiven
  have hle := length_read_le hmore
  rw [hmore]
  by_cases hnil : more = []
  · subst hnil
    exact .failed
  rcases Nat.lt_or_ge (received ++ more).length wireSize with hlt | hge
  · rw [Receiving.afterRead_of_lt hnil hlt]
    exact .receiving hlt hread' hgiven'
  · rw [Receiving.afterRead_of_le hnil hge]
    have hwhole : (received ++ more).length = wireSize := by
      rw [List.length_append] at hge ⊢
      omega
    rcases hv : ofWire (received ++ more) with cause | v
    · exact .failed
    · unfold Greeting.afterReceiving
      dsimp only
      split
      next hcheck =>
        have hcompatible : v.isCompatibleWith own = true := by
          unfold check at hcheck
          split at hcheck
          · assumption
          · cases hcheck
        have hwire : received ++ more = own.toWire :=
          (toWire_of_ofWire hv hwhole).symm.trans (toWire_congr hcompatible)
        refine .sending (hwire ▸ hread') ?_ (toWire_ne_nil own)
        rw [hgiven', List.nil_append]
      · exact .failed

theorem greets_afterWrite (hread : c.HasRead own.toWire) (hgiven : c.given ++ rest = own.toWire)
    (hne : rest ≠ []) :
    Greets own (.afterSending (.afterWrite rest (c.write rest).1)) (c.write rest).2 := by
  have hread' := hread.write rest
  rcases write_cases rest c with ⟨cause, hw⟩ | ⟨hnil, -⟩ | ⟨-, hw⟩
  · rw [hw]
    simp only [Sending.afterWrite, Writing.afterWrite]
    split
    · exact .sending hread hgiven hne
    · exact .failed
  · exact absurd hnil hne
  · rw [hw] at hread' ⊢
    have hpos := accepted_pos (List.length_pos_iff.2 hne) c
    rcases @Sending.afterWrite_ok rest _ hpos with ⟨hleft, hw⟩ | ⟨hall, hw⟩ <;> rw [hw]
    · refine .sending hread' ?_ hleft
      rwa [give, List.append_assoc, List.take_append_drop]
    · refine .flushing hread' ?_
      rwa [give, hall]

theorem hasRead_of_greet {process : Process} {delay : Duration}
    (h : greet own (Connection.new process delay) = (.ok (), c)) :
    c.HasRead own.toWire ∧ c.given = own.toWire := by
  have hrun := run_induction (σ := Connection) (I := Greets own)
    (Q := fun result (c : Connection) => result = .ok () →
      c.HasRead own.toWire ∧ c.given = own.toWire)
    ?_ ?_ ?_ ?_ (Greeting.start own) (Connection.new process delay) (greets_new own process delay)
  · rw [← greet, h] at hrun
    exact hrun rfl
  · rintro m d result ha (_ | _ | _ | ⟨hread, hgiven⟩ | _) <;> cases ha
    · exact fun _ => ⟨hread, hgiven⟩
    · rintro ⟨⟩
  · rintro m d bytes next ha (_ | ⟨hread, hgiven, hne⟩ | _ | _ | _) <;> cases ha
    exact greets_afterWrite hread hgiven hne
  · rintro m d next ha (_ | _ | ⟨hread, hgiven⟩ | _ | _) <;> cases ha
    exact .accepted hread hgiven
  · rintro m d limit next ha (⟨hlength, hread, hgiven⟩ | _ | _ | _ | _) <;> cases ha
    exact greets_afterRead hlength hread hgiven

end Greetings

section Callers

variable {ω κ : Type}

/-- What has passed between a caller and the process behind a connection that has been greeted, once
the caller has done something with it and these bytes are left to be read. -/
structure Passed (own : Version) (process : Process) (c : Connection)
    (operations : List Operation) (rest : List UInt8) : Prop where
  behind : (Caller.after c operations).connection.process = process
  /-- The process has been given the version and what was written with success. -/
  given : (Caller.after c operations).connection.given =
    own.toWire ++ (Caller.after c operations).written
  inputOpen : (Caller.after c operations).connection.inputOpen =
    !operations.any Operation.endsInput
  /-- What is written with success is written before the input ends. -/
  written : ∀ before after, operations = before ++ after → before.any Operation.endsInput →
    (Caller.after c operations).written = (Caller.after c before).written
  readToEnd : (ByteStream.readToEnd (Caller.after c operations).connection).1 = .ok rest
  /-- After the version comes what has been read, and then what is left. -/
  output : (Caller.after c operations).connection.wasKilled = false →
    process.output (own.toWire ++ (Caller.after c operations).written)
      (operations.any Operation.endsInput) =
    own.toWire ++ ((Caller.after c operations).received ++ rest)
  killed : (Caller.after c operations).connection.wasKilled = true → .close ∈ operations ∧
    own.toWire ++ ((Caller.after c operations).received ++ rest) <+:
      process.output (own.toWire ++ (Caller.after c operations).written)
        (operations.any Operation.endsInput)

variable {own : Version} {process : Process} {delay : Duration} {c : Connection}

theorem isOpen_of_greet {result : Except DialError Unit}
    (h : greet own (Connection.new process delay) = (result, c)) :
    c.IsOpen ∧ c.process = process := by
  have hhandle := handle_run (Greeting.start own) (Connection.new process delay)
  rw [← greet, h] at hhandle
  obtain ⟨hopen, hprocess, -⟩ := isOpen_of_handle hhandle
  exact ⟨hopen, hprocess⟩

theorem carried_of_greet (h : greet own (Connection.new process delay) = (.ok (), c)) :
    (Caller.start c).Carried process own.toWire own.toWire := by
  obtain ⟨hread, hgiven⟩ := hasRead_of_greet h
  obtain ⟨hopen, hprocess⟩ := isOpen_of_greet h
  refine ⟨hprocess, ?_, ?_, fun hsome => ?_⟩
  · exact (List.append_nil own.toWire).symm ▸ hread
  · exact hgiven.trans (List.append_nil own.toWire).symm
  · exact nomatch hsome.symm.trans (congrArg Option.isSome hopen.status)

theorem passed_of_greet (h : greet own (Connection.new process delay) = (.ok (), c))
    (operations : List Operation) : ∃ rest, Passed own process c operations rest := by
  obtain ⟨hisOpen, -⟩ := isOpen_of_greet h
  have hstart := carried_of_greet h
  have hcarried : (Caller.after c operations).Carried process own.toWire own.toWire :=
    hstart.actAll operations
  have hopen : (Caller.after c operations).connection.inputOpen =
      !operations.any Operation.endsInput := by
    refine (hstart.inputOpen_actAll operations).trans ?_
    exact (congrArg (· && _) hisOpen.inputOpen).trans (Bool.true_and _)
  have houtput := hcarried.read.output_eq
  rw [List.append_assoc] at houtput
  have hprocess : (Caller.after c operations).connection.process.output
      (Caller.after c operations).connection.given
      (!(Caller.after c operations).connection.inputOpen) =
      process.output (own.toWire ++ (Caller.after c operations).written)
        (operations.any Operation.endsInput) := by
    rw [hopen, Bool.not_not, hcarried.process, hcarried.given]
  refine ⟨_, hcarried.process, hcarried.given, hopen, ?_, readToEnd_eq _, fun halive => ?_,
    fun hkilled => ⟨?_, ?_⟩⟩
  · rintro before after rfl hended
    refine (congrArg Caller.written List.foldl_append).trans ?_
    refine (hstart.actAll before).written_actAll ?_ after
    rw [hstart.inputOpen_actAll, hended, Bool.not_true, Bool.and_false]
  · rw [← hprocess, ← output_of_wasKilled_eq_false halive, houtput]
  · by_cases hmem : .close ∈ operations
    · exact hmem
    · have halive := (@Caller.wasKilled_actAll (.start c) _ hmem).symm.trans hkilled
      exact nomatch halive.symm.trans (congrArg Option.isSome hisOpen.cutoff)
  · rw [← hprocess, ← houtput]
    exact output_isPrefix_process _

end Callers

section Dials

variable {ω κ : Type} {t : Transport ω κ} {p : Prompter ω} {s : Setting} {w w' : World ω}
  {c : Connection}

/-- A dial that comes to a connection hands it over with nothing but the versions read and written.
Whatever its caller does with it then, what the caller reads and what is left to be read are
together what the process says after its version, and the process is given the version and what the
caller writes. -/
theorem dialTransport_transparent (h : (dialTransport t p s).outcome w = (.ok c, w')) :
    ∃ paths prepared process v v',
      (t.command (agentLine s paths)).outcome v = (.ok prepared, v') ∧
      (t.start prepared).outcome v' = (.ok process, w'.outer) ∧
      ∀ operations, ∃ rest, Passed s.own process c operations rest := by
  obtain ⟨-, -, -, -, hc⟩ := dialTransport_tended (t := t) (p := p) (s := s) w
  rw [h] at hc
  obtain ⟨paths, prepared, process, v, v', hcommand, hstarted, hgreet⟩ := hc c rfl
  exact ⟨paths, prepared, process, v, v', hcommand, hstarted, passed_of_greet hgreet⟩

end Dials

section Echo

/-- An agent that says three bytes after its version and then repeats what it hears. The pipe hands
over seven bytes at a time, so that some of the three come with the end of the version, and it takes
five bytes at a time. -/
def echo : Process where
  output given _ := Version.current.toWire ++ [1, 2, 3] ++ given.drop wireSize
  errorOutput := []
  delivery _ := 6
  acceptance _ := some 4
  ending _ ended := if ended then some ⟨.ofSeconds 0, .exited 0⟩ else none
  output_grows given more _ := by
    refine (List.prefix_append_right_inj _).2 ?_
    rw [List.drop_append]
    exact List.prefix_append _ _
  ending_settled _ _ := nofun

def echoes : Transport Unit Process where
  copy _ _ := pure ()
  command _ := pure echo
  start process := pure process

def echoSetting : Setting where
  config := Config.default
  own := Version.current
  executable := ⟨"tether"⟩
  readBundle _ := .error .writeZero
  temporaryDirectory := ⟨"tmp"⟩
  freshName := "tether-agent"
  freshId := 0

/-- Two bytes of what follows the version have come out of the pipe with it. -/
def echoGreeted : Connection :=
  { Connection.new echo echoSetting.config.killDelay with
    given := Version.current.toWire
    writes := 3
    taken := 14
    reads := 2
    buffer := [1, 2] }

theorem greet_echo :
    greet Version.current (Connection.new echo echoSetting.config.killDelay) =
      (.ok (), echoGreeted) := by
  rw [greet, run_read rfl, run_read rfl, run_write rfl, run_write rfl, run_write rfl,
    run_flush rfl, run_finish rfl]
  rfl

theorem outcome_attempt_echo :
    ∃ w', (attempt (World.transport echoes) echoSetting .posix).outcome (World.start ()) =
      (.ok echoGreeted, w') :=
  ⟨_, outcome_attempt_greeted rfl rfl greet_echo⟩

/-- What came with the version is read first, then what was still in the pipe, then the echo. -/
theorem dialTransport_transparent_echo :
    ∃ w', (dialTransport echoes (.silent Unit) echoSetting).outcome (World.start ()) =
        (.ok echoGreeted, w') ∧
      (∃ paths prepared process v v',
        (echoes.command (agentLine echoSetting paths)).outcome v = (.ok prepared, v') ∧
        (echoes.start prepared).outcome v' = (.ok process, w'.outer) ∧
        ∀ operations, ∃ rest, Passed echoSetting.own process echoGreeted operations rest) ∧
      (Caller.after echoGreeted [.read 1, .write [9]]).received = [1] ∧
      (ByteStream.readToEnd (Caller.after echoGreeted [.read 1, .write [9]]).connection).1 =
        .ok [2, 3, 9] := by
  obtain ⟨w', hattempt⟩ := outcome_attempt_echo
  have hends := endsAs_dialTransport (t := echoes) (p := .silent Unit) (s := echoSetting)
    (World.start ())
  obtain ⟨hresult, hworld⟩ := finished_unique hends (.single (.connected hattempt))
  have hdial : (dialTransport echoes (.silent Unit) echoSetting).outcome (World.start ()) =
      (.ok echoGreeted, w') := Prod.ext hresult hworld
  refine ⟨w', hdial, dialTransport_transparent hdial, rfl, ?_⟩
  rw [readToEnd_eq]
  rfl

end Echo

end RemoteAgent.Dial
