import RemoteAgent.Connection.Memory
import RemoteAgent.Process.Basic
import RemoteAgent.Proofs.Handshake.Receiving

/-! # Agents left to themselves

An agent between two pipes goes on until it has to wait for its client. One that hears its own
version says no more than its version: then it takes in all that comes, and ends when its client
hangs up. An agent in this process is one such agent, and a process that serves is another.
-/

namespace RemoteAgent

open StreamMachine PipeEnd Version

section Pipes

variable {own : Version} {payload given taken : List UInt8} {capacity : Nat}
  {e e' : PipeEnd Agent.Serving}

/-- Where an agent stands that is given these bytes by a client of the same version, when so much of
its output has been taken away. The client hangs up only after all of its bytes. -/
structure Attends (own : Version) (payload given taken : List UInt8) (e : PipeEnd Agent.Serving) :
    Prop where
  said : given <+: own.toWire ++ payload
  whole : e.incoming.closed = true → given = own.toWire ++ payload
  talking : e.outgoing.closed = false
  place : ∃ read, read ++ e.incoming.content = given ∧
    AgentAt own own payload e.incoming.closed e.machine (taken ++ e.outgoing.content) read

theorem isCompatibleWith_self (v : Version) : v.isCompatibleWith v = true :=
  (isCompatibleWith_iff v v).2 rfl

theorem Attends.moved (h : Attends own payload given taken e) (hm : Moved capacity e e') :
    Attends own payload given taken e' := by
  obtain ⟨hsaid, hwhole, htalking, read, hread, hplace⟩ := h
  obtain ⟨hin, hout⟩ := hm.closed
  obtain ⟨read', hread', hplace'⟩ := hplace.moved hm (hread ▸ hsaid)
    (fun _ => isCompatibleWith_self own) fun hclosed hnil =>
      .inl ⟨isCompatibleWith_self own, by rw [← hwhole hclosed, ← hread, hnil, List.append_nil]⟩
  refine ⟨hsaid, fun hclosed => hwhole (hin ▸ hclosed), hout.trans htalking, read',
    hread'.trans hread, ?_⟩
  rw [hm.outgoing, ← List.append_assoc]
  exact hplace'

/-- An agent that has taken in these bytes and can go no further: it waits for more, or it has
finished. -/
def Agent.Serving.resting (own : Version) (read : List UInt8) : Bool → Agent.Serving
  | true => .done (.ok ())
  | false => if read.length < wireSize then .receiving own (.reading read) else .draining

theorem AgentAt.rests {sent read : List UInt8}
    (h : AgentAt own own payload e.incoming.closed e.machine sent read)
    (hstuck : ¬ ∃ e', e.step? capacity 1 = some e')
    (hroom : sent.length < wireSize → e.outgoing.content.length < capacity)
    (hwhole : e.incoming.closed = true → read ++ e.incoming.content = own.toWire ++ payload) :
    e.machine = .resting own (read ++ e.incoming.content) e.incoming.closed ∧
      sent = own.toWire ∧ e.incoming.content = [] := by
  obtain ⟨m, ⟨content, closed⟩, outgoing⟩ := e
  dsimp only at h hroom hwhole ⊢
  -- Whoever could read has nothing left to read.
  have hwaits : ∀ {limit next}, action m = .read limit next → 0 < limit →
      content = [] ∧ closed = false := by
    intro limit next ha hpos
    have hnone := mt (exists_step?_read ha hpos) hstuck
    obtain ⟨hnil, hopen⟩ := not_or.1 hnone
    exact ⟨Classical.not_not.1 hnil, Bool.not_eq_true _ ▸ hopen⟩
  cases h with
  | writing hrest hne =>
    exact absurd (exists_step?_write rfl hne (hroom (length_lt_of_append hrest hne))) hstuck
  | flushing => exact absurd (exists_step?_flush rfl) hstuck
  | reading hread =>
    obtain ⟨rfl, rfl⟩ := hwaits rfl (Nat.sub_pos_of_lt hread)
    rw [List.append_nil]
    exact ⟨(if_pos hread).symm, rfl, rfl⟩
  | @draining read =>
    obtain ⟨rfl, rfl⟩ := hwaits rfl (by decide)
    have hlong : ¬ (own.toWire ++ read ++ []).length < wireSize := by simp
    rw [Agent.Serving.resting, if_neg hlong]
    exact ⟨rfl, rfl, rfl⟩
  | accepted hclosed =>
    subst hclosed
    exact ⟨rfl, rfl, List.append_right_eq_self.1 (hwhole rfl)⟩
  | rejected _ hc => exact nomatch hc.symm.trans (isCompatibleWith_self own)

theorem Agent.Serving.resting_append (own : Version) (payload : List UInt8) (hungUp : Bool) :
    resting own (own.toWire ++ payload) hungUp = if hungUp then .done (.ok ()) else .draining := by
  have hlong : ¬ (own.toWire ++ payload).length < wireSize := by simp
  cases hungUp with
  | true => rfl
  | false =>
    rw [resting, if_neg hlong]
    rfl

/-- An agent that is let go as far as it can says its version and takes in all that it is given. -/
theorem Attends.settle (h : Attends own payload given taken e) (hcapacity : wireSize ≤ capacity) :
    ∃ out, taken ++ out = own.toWire ∧ e.settle capacity =
      ⟨.resting own given e.incoming.closed, ⟨[], e.incoming.closed⟩, ⟨out, false⟩⟩ := by
  have hpos : 0 < capacity := Nat.lt_of_lt_of_le (by decide) hcapacity
  obtain ⟨⟨hattends, hclosed⟩, hstuck⟩ := settle_induction
    (I := fun e' => Attends own payload given taken e' ∧ e'.incoming.closed = e.incoming.closed)
    hpos (fun hm hI => ⟨hI.1.moved hm, hm.closed.1.trans hI.2⟩) ⟨h, rfl⟩
  generalize e.settle capacity = e' at hattends hclosed hstuck
  obtain ⟨-, hwhole, htalking, read, rfl, hplace⟩ := hattends
  obtain ⟨hmachine, hsaid, hnil⟩ := hplace.rests hstuck (fun hlt => by
    rw [List.length_append] at hlt
    omega) hwhole
  obtain ⟨m, ⟨content, closed⟩, ⟨out, talking⟩⟩ := e'
  cases hclosed
  cases htalking
  cases hnil
  exact ⟨out, hsaid, congrArg (PipeEnd.mk · ⟨[], e.incoming.closed⟩ ⟨out, false⟩) hmachine⟩

theorem ClientAt.greeted {e : PipeEnd Dial.Greeting} {sent read : List UInt8}
    (h : ClientAt own own [] e.machine sent read []) (hr : e.result?.isSome) :
    e.machine = .done (.ok ()) ∧ sent = own.toWire ∧ read = own.toWire := by
  obtain ⟨m, incoming, outgoing⟩ := e
  cases h with
  | reading | writing | flushing => cases hr
  | accepted _ hsaid =>
    rw [(List.append_eq_nil_iff.1 hsaid).1, List.append_nil]
    exact ⟨rfl, rfl, rfl⟩
  | rejected hc => exact nomatch hc.symm.trans (isCompatibleWith_self own)

/-- Where a client stands that is sent its own version and nothing else. -/
structure Hails (own : Version) (e : PipeEnd Dial.Greeting) : Prop where
  hearing : e.incoming.closed = false
  talking : e.outgoing.closed = false
  place : ∃ read, read ++ e.incoming.content = own.toWire ∧
    ClientAt own own [] e.machine e.outgoing.content read []

theorem Hails.moved {e e' : PipeEnd Dial.Greeting} (h : Hails own e) (hm : Moved capacity e e') :
    Hails own e' := by
  obtain ⟨hhearing, htalking, read, hread, hplace⟩ := h
  obtain ⟨hin, hout⟩ := hm.closed
  obtain ⟨read', hread', hplace'⟩ :=
    hplace.moved hm (hread ▸ List.prefix_rfl) fun hclosed => nomatch hclosed.symm.trans hhearing
  refine ⟨hin.trans hhearing, hout.trans htalking, read', hread'.trans hread, ?_⟩
  rw [hm.outgoing]
  exact hplace'

/-- A client of the same version that is let go as far as it can has greeted the agent. -/
theorem settle_greeting (own : Version) (hcapacity : wireSize ≤ capacity) :
    PipeEnd.settle capacity ⟨Dial.Greeting.start own, ⟨own.toWire, false⟩, .empty⟩ =
      ⟨.done (.ok ()), .empty, ⟨own.toWire, false⟩⟩ := by
  have hstart : Hails own ⟨.start own, ⟨own.toWire, false⟩, .empty⟩ :=
    ⟨rfl, rfl, [], rfl, ClientAt.start⟩
  obtain ⟨⟨hhearing, htalking, read, hread, hplace⟩, hstuck⟩ :=
    settle_induction (Nat.lt_of_lt_of_le (by decide) hcapacity) (fun hm h => h.moved hm) hstart
  generalize PipeEnd.settle capacity (_ : PipeEnd Dial.Greeting) = e at *
  obtain ⟨m, ⟨content, closed⟩, ⟨out, talking⟩⟩ := e
  cases hhearing
  cases htalking
  dsimp only at hread hplace
  rcases hr : result? ⟨m, ⟨content, false⟩, ⟨out, false⟩⟩ with _ | result
  · refine absurd (hplace.exists_step? hr (fun hlt => .inl ?_) fun _ hlt => ?_) hstuck
    · rintro rfl
      rw [List.append_nil] at hread
      rw [hread, length_toWire] at hlt
      exact Nat.lt_irrefl _ hlt
    · exact Nat.lt_of_lt_of_le hlt hcapacity
  · obtain ⟨hmachine, hsaid, hall⟩ := hplace.greeted (by rw [hr]; rfl)
    have hnil : content = [] := by
      rw [hall] at hread
      exact List.append_right_eq_self.1 hread
    cases hmachine
    cases hsaid
    cases hnil
    rfl

end Pipes

namespace MemoryConnection

/-- The connection to an agent that has taken in everything, before and after the end of what is
written. -/
def resting : Bool → MemoryConnection
  | false => ⟨⟨.draining, ⟨[], false⟩, ⟨[], false⟩⟩⟩
  | true => ⟨⟨.done (.ok ()), ⟨[], true⟩, ⟨[], true⟩⟩⟩

theorem attends_draining (bytes : List UInt8) (closed : Bool) :
    Attends .current bytes (Version.current.toWire ++ bytes) Version.current.toWire
      ⟨.draining, ⟨bytes, closed⟩, .empty⟩ := by
  refine ⟨List.prefix_rfl, fun _ => rfl, rfl, Version.current.toWire, rfl, ?_⟩
  have h : AgentAt .current .current bytes closed .draining Version.current.toWire
      (Version.current.toWire ++ []) := .draining rfl
  rwa [List.append_nil] at h

theorem settle_draining (bytes : List UInt8) (closed : Bool) :
    PipeEnd.settle pipeCapacity ⟨Agent.Serving.draining, ⟨bytes, closed⟩, .empty⟩ =
      ⟨if closed then .done (.ok ()) else .draining, ⟨[], closed⟩, .empty⟩ := by
  obtain ⟨out, hout, h⟩ :=
    (attends_draining bytes closed).settle (show wireSize ≤ pipeCapacity by decide)
  obtain rfl : out = [] := List.append_right_eq_self.1 hout
  rw [h, Agent.Serving.resting_append]
  rfl

theorem write_resting_false {bytes : List UInt8} (hne : bytes ≠ []) :
    (resting false).write bytes = (.ok bytes.length, resting false) := by
  have hsettle : settle ⟨⟨.draining, ⟨bytes, false⟩, .empty⟩⟩ = resting false := by
    rw [settle, settle_draining]
    rfl
  rw [write, if_neg (by simpa using hne), if_neg (by decide)]
  exact congrArg _ hsettle

theorem write_resting_true {bytes : List UInt8} (hne : bytes ≠ []) :
    (resting true).write bytes = (.error closedPipe, resting true) := by
  rw [write, if_neg (by simpa using hne)]
  rfl

theorem shutdown_resting (hungUp : Bool) : (resting hungUp).shutdown = resting true := by
  cases hungUp with
  | false =>
    have hsettle : settle ⟨⟨.draining, ⟨[], true⟩, .empty⟩⟩ = resting true := by
      rw [settle, settle_draining]
      rfl
    exact hsettle
  | true =>
    rw [shutdown, settle, PipeEnd.settle]
    rfl

theorem read_resting (limit : Nat) (hungUp : Bool) :
    (resting hungUp).read limit = ([], resting hungUp) := by
  cases hungUp <;> simp [read, resting]

theorem settle_start (own : Version) :
    settle ⟨⟨.start own, .empty, .empty⟩⟩ =
      ⟨⟨.receiving own .start, .empty, ⟨own.toWire, false⟩⟩⟩ := by
  have hstart : Attends own [] [] [] ⟨.start own, .empty, .empty⟩ :=
    ⟨List.nil_prefix, nofun, rfl, [], rfl, AgentAt.start⟩
  obtain ⟨out, hout, h⟩ := hstart.settle (show wireSize ≤ pipeCapacity by decide)
  rw [List.nil_append] at hout
  subst hout
  rw [settle, h]
  rfl

theorem settle_receiving (own : Version) :
    settle ⟨⟨.receiving own .start, ⟨own.toWire, false⟩, .empty⟩⟩ = resting false := by
  have hreceiving : Attends own [] own.toWire own.toWire
      ⟨.receiving own .start, ⟨own.toWire, false⟩, .empty⟩ := by
    have hplace : AgentAt own own [] false (.receiving own .start) (own.toWire ++ []) [] := by
      rw [List.append_nil]
      exact .reading (by decide)
    exact ⟨List.prefix_append _ _, nofun, rfl, [], rfl, hplace⟩
  obtain ⟨out, hout, h⟩ := hreceiving.settle (show wireSize ≤ pipeCapacity by decide)
  obtain rfl : out = [] := List.append_right_eq_self.1 hout
  have hresting := Agent.Serving.resting_append own [] false
  rw [List.append_nil] at hresting
  rw [settle, h, hresting]
  rfl

/-- The agent takes in the version of the client, and nothing is left in either pipe. -/
theorem dial_self (own : Version) : dial own own = .ok (resting false) := by
  have hgreeting := settle_greeting own (show wireSize ≤ pipeCapacity by decide)
  unfold dial
  rw [settle_start]
  dsimp only
  rw [hgreeting]
  exact congrArg Except.ok (settle_receiving own)

end MemoryConnection

section Processes

/-- Where an agent stands that says its version, whatever it is given. -/
inductive Speaks (own : Version) : Agent.Serving → List UInt8 → Prop where

  | writing {said rest : List UInt8} : said ++ rest = own.toWire → rest ≠ [] →
      Speaks own (.sending own (.writing rest)) said

  | flushing : Speaks own (.sending own .flushing) own.toWire

  | reading {received : List UInt8} : received.length < wireSize →
      Speaks own (.receiving own (.reading received)) own.toWire

  | draining : Speaks own .draining own.toWire

  | done {result : Except AgentError Unit} : Speaks own (.done result) own.toWire

variable {own : Version} {m : Agent.Serving} {said bytes received : List UInt8} {capacity : Nat}
  {e e' : PipeEnd Agent.Serving}

theorem Speaks.wrote {count : Nat} {next : Except IoError Nat → Agent.Serving}
    (h : Speaks own m said) (ha : action m = .write bytes next) (hpos : 0 < count) :
    Speaks own (next (.ok count)) (said ++ bytes.take count) := by
  cases h with
  | flushing | reading | draining | done => cases ha
  | writing hrest hne =>
    cases ha
    dsimp only
    rcases Sending.afterWrite_ok hpos with ⟨hleft, hw⟩ | ⟨hall, hw⟩
    · rw [hw]
      exact .writing (by rw [List.append_assoc, List.take_append_drop, hrest]) hleft
    · rw [hw, hall, hrest]
      exact .flushing

theorem Speaks.afterReceiving {state : Receiving} (h : state.IsShort) :
    Speaks own (.afterReceiving own state) own.toWire := by
  unfold Agent.Serving.afterReceiving
  split
  · split
    · exact .draining
    · exact .done
  · exact .done
  next hne hne' =>
    rcases state with received | result
    · exact .reading (h received rfl)
    · rcases result with cause | v
      · exact absurd rfl (hne' cause)
      · exact absurd rfl (hne v)

theorem Speaks.took {limit : Nat} {next : Except IoError (List UInt8) → Agent.Serving}
    (h : Speaks own m said) (ha : action m = .read limit next) (bytes : List UInt8) :
    Speaks own (next (.ok bytes)) said := by
  cases h with
  | writing | flushing | done => cases ha
  | reading =>
    cases ha
    exact .afterReceiving (Receiving.isShort_afterRead _ _)
  | draining =>
    cases ha
    cases bytes with
    | nil => exact .done
    | cons => exact .draining

theorem Speaks.moved (h : Speaks own e.machine e.outgoing.content) (hm : Moved capacity e e') :
    Speaks own e'.machine e'.outgoing.content := by
  obtain ⟨m, incoming, ⟨said, talking⟩⟩ := e
  dsimp only at h
  cases hm with
  | flushed ha =>
    cases h with
    | writing | reading | draining | done => cases ha
    | flushing =>
      cases ha
      exact .reading (by decide)
  | wrote ha hpos => exact h.wrote ha hpos
  | ended ha => exact h.took ha _
  | read ha => exact h.took ha _

/-- An agent that has been given these bytes, and perhaps the end of its input, and the output of
which is read by nobody. -/
def servedUpTo (own : Version) (given : List UInt8) (ended : Bool) : PipeEnd Agent.Serving :=
  PipeEnd.settle Process.pipeCapacity ⟨.start own, ⟨given, ended⟩, .empty⟩

/-- An agent that hears its own version, or that has not heard all of it, waits for its client. -/
theorem servedUpTo_eq {own : Version} {payload given : List UInt8} {ended : Bool}
    (h : given <+: own.toWire ++ payload) (hwhole : ended = true → given = own.toWire ++ payload) :
    servedUpTo own given ended =
      ⟨.resting own given ended, ⟨[], ended⟩, ⟨own.toWire, false⟩⟩ := by
  have hstart : Attends own payload given [] ⟨.start own, ⟨given, ended⟩, .empty⟩ :=
    ⟨h, hwhole, rfl, [], rfl, AgentAt.start⟩
  obtain ⟨out, hout, h⟩ := hstart.settle (show wireSize ≤ Process.pipeCapacity by decide)
  rw [List.nil_append] at hout
  subst hout
  exact h

/-- Whatever an agent is given, it says its version and no more, and it ends with its input if it
has not ended before. -/
theorem servedUpTo_speaks (own : Version) (given : List UInt8) (ended : Bool) :
    (servedUpTo own given ended).outgoing.content = own.toWire ∧
      (ended = true → (servedUpTo own given ended).result?.isSome) := by
  have hstart : Speaks own (.start own) [] := .writing (List.nil_append _) (toWire_ne_nil own)
  obtain ⟨⟨hspeaks, hclosed⟩, hstuck⟩ := settle_induction
    (I := fun e : PipeEnd Agent.Serving =>
      Speaks own e.machine e.outgoing.content ∧ e.incoming.closed = ended)
    (e := ⟨.start own, ⟨given, ended⟩, .empty⟩) (show 0 < Process.pipeCapacity by decide)
    (fun hm hI => ⟨hI.1.moved hm, hm.closed.1.trans hI.2⟩) ⟨hstart, rfl⟩
  rw [← servedUpTo] at hspeaks hclosed hstuck
  generalize servedUpTo own given ended = e at *
  obtain ⟨m, ⟨content, closed⟩, ⟨said, talking⟩⟩ := e
  cases hclosed
  dsimp only at hspeaks
  cases hspeaks with
  | writing hrest hne =>
    refine absurd (exists_step?_write rfl hne ?_) hstuck
    exact Nat.lt_trans (length_lt_of_append hrest hne) (by decide)
  | flushing => exact absurd (exists_step?_flush rfl) hstuck
  | reading hlt =>
    refine ⟨rfl, fun hend => absurd ?_ hstuck⟩
    exact exists_step?_read rfl (Nat.sub_pos_of_lt hlt) (.inr hend)
  | draining =>
    refine ⟨rfl, fun hend => absurd ?_ hstuck⟩
    exact exists_step?_read rfl (by decide) (.inr hend)
  | done => exact ⟨rfl, fun _ => rfl⟩

/-- What an agent has come to before the end of its input is what it comes to. -/
theorem result?_servedUpTo_true {own : Version} {given : List UInt8}
    {result : Except AgentError Unit} (h : (servedUpTo own given false).result? = some result) :
    (servedUpTo own given true).result? = some result :=
  result?_settle_hangUp h

/-- A process that does what an agent of a version does with its input. It may take its time to end,
and how it ends is left open. -/
structure Process.Serves (p : Process) (own : Version) : Prop where
  output : ∀ given ended, p.output given ended = (servedUpTo own given ended).outgoing.content
  ending : ∀ given ended,
    (p.ending given ended).isSome = (servedUpTo own given ended).result?.isSome

theorem result?_resting (own : Version) (read : List UInt8) (incoming outgoing : Pipe) :
    result? ⟨Agent.Serving.resting own read false, incoming, outgoing⟩ = none := by
  rw [Agent.Serving.resting]
  split <;> rfl

theorem Process.Serves.ending_eq_none {p : Process} {own : Version} {given payload : List UInt8}
    (h : p.Serves own) (hgiven : given <+: own.toWire ++ payload) :
    p.ending given false = none := by
  have hwaiting : servedUpTo own given false =
      ⟨.resting own given false, ⟨[], false⟩, ⟨own.toWire, false⟩⟩ := servedUpTo_eq hgiven nofun
  have hending := h.ending given false
  rw [hwaiting, result?_resting] at hending
  exact Option.isNone_iff_eq_none.1 (Option.isSome_eq_false_iff.1 hending)

/-- An agent that serves and ends at once with what it has come to. -/
def Process.serving (own : Version) : Process where
  output _ _ := own.toWire
  errorOutput := []
  delivery _ := Process.pipeCapacity
  acceptance _ := none
  ending given ended :=
    (servedUpTo own given ended).result?.map fun
      | .ok () => ⟨⟨0⟩, .exited 0⟩
      | .error _ => ⟨⟨0⟩, .exited 1⟩
  output_grows _ _ _ := List.prefix_rfl
  ending_settled given e h := by
    obtain ⟨result, hresult, rfl⟩ := Option.map_eq_some_iff.1 h
    rw [result?_servedUpTo_true hresult]
    rfl

theorem serves_serving (own : Version) : (Process.serving own).Serves own where
  output given ended := (servedUpTo_speaks own given ended).1.symm
  ending _ _ := Option.isSome_map

end Processes

end RemoteAgent
