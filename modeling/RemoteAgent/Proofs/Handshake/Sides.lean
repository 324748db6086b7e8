import RemoteAgent.Proofs.Handshake.Exchange
import RemoteAgent.Proofs.Stream.Pipe
import RemoteAgent.Proofs.Version.Wire

/-! # Where the two sides of a handshake stand

What a side has written and read so far says where it stands, as long as it reads what the other one
writes. Each step of a side leads from one such place to the next.
-/

namespace RemoteAgent

open Dial StreamMachine PipeEnd Version

section Messages

variable {received bytes rest : List UInt8} {count : Nat}

theorem Receiving.afterRead_of_lt (hb : bytes ≠ []) (h : (received ++ bytes).length < wireSize) :
    afterRead received (.ok bytes) = .reading (received ++ bytes) := by
  unfold afterRead
  split
  next he =>
    cases he
    exact absurd rfl hb
  next he =>
    cases he
    rw [if_pos h]
  next he => cases he

theorem Receiving.afterRead_of_le (hb : bytes ≠ []) (h : wireSize ≤ (received ++ bytes).length) :
    afterRead received (.ok bytes) = .done (ofWire (received ++ bytes)) := by
  unfold afterRead
  split
  next he =>
    cases he
    exact absurd rfl hb
  next he =>
    cases he
    rw [if_neg (Nat.not_lt.2 h)]
  next he => cases he

theorem Sending.afterWrite_ok (hpos : 0 < count) :
    (rest.drop count ≠ [] ∧ afterWrite rest (.ok count) = .writing (rest.drop count)) ∨
      (rest.take count = rest ∧ afterWrite rest (.ok count) = .flushing) := by
  rw [afterWrite, Writing.afterWrite_of_pos hpos]
  by_cases hnil : rest.drop count = []
  · refine .inr ⟨List.take_of_length_le (List.drop_eq_nil_iff.1 hnil), ?_⟩
    rw [hnil]
    rfl
  · refine .inl ⟨hnil, ?_⟩
    rw [Writing.start_of_ne_nil hnil]
    rfl

theorem take_ne_nil (hpos : 0 < count) (hle : count ≤ bytes.length) : bytes.take count ≠ [] := by
  intro hnil
  have := congrArg List.length hnil
  rw [List.length_take, List.length_nil] at this
  omega

/-- As long as something of a version is left to write, not all of it has been written. -/
theorem length_lt_of_append {v : Version} {sent : List UInt8} (h : sent ++ rest = v.toWire)
    (hne : rest ≠ []) : sent.length < wireSize := by
  have hlen := congrArg List.length h
  rw [List.length_append, length_toWire] at hlen
  have := List.length_pos_iff.2 hne
  omega

theorem append_take_append_drop (read content : List UInt8) (count : Nat) :
    (read ++ content.take count) ++ content.drop count = read ++ content := by
  rw [List.append_assoc, List.take_append_drop]

end Messages

section Sides

variable (client agent : Version) (payload : List UInt8)

/-- Where the client stands once it has written and read so much and has so much pending. -/
inductive ClientAt : Greeting → List UInt8 → List UInt8 → List UInt8 → Prop where

  | reading {received : List UInt8} : received.length < wireSize →
      ClientAt (.receiving client (.reading received)) [] received payload

  | writing {sent rest : List UInt8} : client.isCompatibleWith agent = true →
      sent ++ rest = client.toWire → rest ≠ [] →
      ClientAt (.sending (.writing rest)) sent agent.toWire payload

  | flushing : client.isCompatibleWith agent = true →
      ClientAt (.sending .flushing) client.toWire agent.toWire payload

  | accepted {said pending : List UInt8} : client.isCompatibleWith agent = true →
      said ++ pending = payload →
      ClientAt (.done (.ok ())) (client.toWire ++ said) agent.toWire pending

  | rejected : client.isCompatibleWith agent = false →
      ClientAt (.done (.error (.versionMismatch agent.untagged client))) [] agent.toWire payload

/-- Where the agent stands once it has written and read so much. It has finished only if the client
has hung up. -/
inductive AgentAt (hungUp : Bool) : Agent.Serving → List UInt8 → List UInt8 → Prop where

  | writing {sent rest : List UInt8} : sent ++ rest = agent.toWire → rest ≠ [] →
      AgentAt hungUp (.sending agent (.writing rest)) sent []

  | flushing : AgentAt hungUp (.sending agent .flushing) agent.toWire []

  | reading {received : List UInt8} : received.length < wireSize →
      AgentAt hungUp (.receiving agent (.reading received)) agent.toWire received

  | draining {read : List UInt8} : client.isCompatibleWith agent = true →
      AgentAt hungUp .draining agent.toWire (client.toWire ++ read)

  | accepted : hungUp = true → client.isCompatibleWith agent = true →
      AgentAt hungUp (.done (.ok ())) agent.toWire (client.toWire ++ payload)

  | rejected : hungUp = true → client.isCompatibleWith agent = false →
      AgentAt hungUp (.done (.error (.protocol (.truncated 0 wireSize)))) agent.toWire []

variable {client agent payload} {hungUp : Bool}

theorem ClientAt.start : ClientAt client agent payload (.start client) [] [] payload :=
  .reading (by decide)

theorem AgentAt.start : AgentAt client agent payload hungUp (.start agent) [] [] :=
  .writing rfl (toWire_ne_nil agent)

theorem AgentAt.sent_isPrefix {m : Agent.Serving} {sent read : List UInt8}
    (h : AgentAt client agent payload hungUp m sent read) : sent <+: agent.toWire := by
  cases h with
  | writing h => exact ⟨_, h⟩
  | flushing | reading | draining | accepted | rejected => exact List.prefix_rfl

theorem AgentAt.hangUp {m : Agent.Serving} {sent read : List UInt8}
    (h : AgentAt client agent payload hungUp m sent read) :
    AgentAt client agent payload true m sent read := by
  cases h with
  | writing h hne => exact .writing h hne
  | flushing => exact .flushing
  | reading h => exact .reading h
  | draining hc => exact .draining hc
  | accepted _ hc => exact .accepted rfl hc
  | rejected _ hc => exact .rejected rfl hc

theorem ClientAt.sent_isPrefix {m : Greeting} {sent read pending : List UInt8}
    (h : ClientAt client agent payload m sent read pending) :
    sent <+: client.toWire ++ payload := by
  cases h with
  | reading | rejected => exact List.nil_prefix
  | writing _ h => exact ⟨_ ++ payload, by rw [← List.append_assoc, h]⟩
  | flushing => exact ⟨payload, rfl⟩
  | accepted _ h => exact ⟨_, by rw [List.append_assoc, h]⟩

theorem ClientAt.compatible {m : Greeting} {sent read pending : List UInt8}
    (h : ClientAt client agent payload m sent read pending) (hs : sent ≠ []) :
    client.isCompatibleWith agent = true := by
  cases h with
  | reading | rejected => exact absurd rfl hs
  | writing hc | flushing hc | accepted hc => exact hc

end Sides

section Steps

variable {client agent : Version} {payload sent read pending bytes : List UInt8} {hungUp : Bool}

section Client

variable {m : Greeting} (h : ClientAt client agent payload m sent read pending)
include h

theorem ClientAt.flushed {next : Except IoError Unit → Greeting} (ha : action m = .flush next) :
    ClientAt client agent payload (next (.ok ())) sent read pending := by
  cases h with
  | reading | writing | accepted | rejected => cases ha
  | flushing hc =>
    cases ha
    have hacc : ClientAt client agent payload (.done (.ok ())) (client.toWire ++ []) agent.toWire
        payload := .accepted hc rfl
    rwa [List.append_nil] at hacc

theorem ClientAt.wrote {count : Nat} {next : Except IoError Nat → Greeting}
    (ha : action m = .write bytes next) (hpos : 0 < count) :
    ClientAt client agent payload (next (.ok count)) (sent ++ bytes.take count) read pending := by
  cases h with
  | reading | flushing | accepted | rejected => cases ha
  | writing hc hrest hne =>
    cases ha
    dsimp only
    rcases Sending.afterWrite_ok hpos with ⟨hleft, hw⟩ | ⟨hall, hw⟩
    · rw [hw]
      exact .writing hc (by rw [List.append_assoc, List.take_append_drop, hrest]) hleft
    · rw [hw, hall, hrest]
      exact .flushing hc

/-- What the client reads is the wire form of the agent's version; with its end it decides. -/
theorem ClientAt.took {limit : Nat} {next : Except IoError (List UInt8) → Greeting}
    (ha : action m = .read limit next) (hb : bytes ≠ []) (hw : read ++ bytes <+: agent.toWire) :
    ClientAt client agent payload (next (.ok bytes)) sent (read ++ bytes) pending := by
  cases h with
  | writing | flushing | accepted | rejected => cases ha
  | reading hlt =>
    cases ha
    dsimp only
    rcases Nat.lt_or_ge (read ++ bytes).length wireSize with hlt' | hge
    · rw [Receiving.afterRead_of_lt hb hlt']
      exact .reading hlt'
    · have hall : read ++ bytes = agent.toWire := hw.eq_of_length_le hge
      rw [Receiving.afterRead_of_le hb hge, hall, ofWire_toWire]
      cases hc : client.isCompatibleWith agent with
      | true =>
        simp only [Greeting.afterReceiving, check_untagged hc]
        exact .writing hc rfl (toWire_ne_nil client)
      | false =>
        simp only [Greeting.afterReceiving, check_untagged_of_incompatible hc]
        exact .rejected hc

theorem ClientAt.length_read_lt {limit : Nat} {next : Except IoError (List UInt8) → Greeting}
    (ha : action m = .read limit next) : read.length < wireSize := by
  cases h with
  | writing | flushing | accepted | rejected => cases ha
  | reading hlt => exact hlt

theorem ClientAt.length_sent_lt {next : Except IoError Nat → Greeting}
    (ha : action m = .write bytes next) :
    client.isCompatibleWith agent = true ∧ sent.length < wireSize := by
  cases h with
  | reading | flushing | accepted | rejected => cases ha
  | writing hc hrest hne => exact ⟨hc, length_lt_of_append hrest hne⟩

end Client

/-- A step of the client between two pipes; its incoming one ends only after the whole message. -/
theorem ClientAt.moved {capacity : Nat} {e e' : PipeEnd Greeting}
    (h : ClientAt client agent payload e.machine sent read pending) (hm : Moved capacity e e')
    (hin : read ++ e.incoming.content <+: agent.toWire)
    (hend : e.incoming.closed = true → e.incoming.content = [] → read = agent.toWire) :
    ∃ read', read' ++ e'.incoming.content = read ++ e.incoming.content ∧
      ClientAt client agent payload e'.machine
        (sent ++ e'.outgoing.content.drop e.outgoing.content.length) read' pending := by
  cases hm with
  | flushed ha =>
    refine ⟨read, rfl, ?_⟩
    rw [List.drop_length, List.append_nil]
    exact h.flushed ha
  | wrote ha hpos =>
    refine ⟨read, rfl, ?_⟩
    rw [List.drop_left]
    exact h.wrote ha hpos
  | ended ha hnil hclosed =>
    have hlt := h.length_read_lt ha
    rw [hend hclosed hnil, length_toWire] at hlt
    exact absurd hlt (Nat.lt_irrefl _)
  | @read limit next count ha hpos hle hcount =>
    have hsplit := append_take_append_drop read e.incoming.content count
    refine ⟨read ++ e.incoming.content.take count, hsplit, ?_⟩
    rw [List.drop_length, List.append_nil]
    rw [← hsplit] at hin
    exact h.took ha (take_ne_nil hpos hcount) ((List.prefix_append _ _).trans hin)

/-- Bytes of its own are all that an accepted client writes. -/
theorem ClientAt.spoke {e : PipeEnd Greeting}
    (h : ClientAt client agent payload e.machine sent read pending)
    (hr : e.result? = some (.ok ())) (count : Nat) :
    ClientAt client agent payload e.machine (sent ++ pending.take count) read
      (pending.drop count) := by
  obtain ⟨m, incoming, outgoing⟩ := e
  cases h with
  | reading | writing | flushing | rejected => cases hr
  | accepted hc hsaid =>
    rw [List.append_assoc]
    refine .accepted hc ?_
    rw [List.append_assoc, List.take_append_drop, hsaid]

theorem ClientAt.exists_step? {capacity : Nat} {e : PipeEnd Greeting}
    (h : ClientAt client agent payload e.machine sent read pending) (hr : e.result? = none)
    (hin : read.length < wireSize → e.incoming.content ≠ [] ∨ e.incoming.closed = true)
    (hroom : read = agent.toWire → sent.length < wireSize →
      e.outgoing.content.length < capacity) :
    ∃ e', e.step? capacity 1 = some e' := by
  obtain ⟨m, incoming, outgoing⟩ := e
  cases h with
  | reading hread => exact exists_step?_read rfl (Nat.sub_pos_of_lt hread) (hin hread)
  | writing hc hrest hne =>
    exact exists_step?_write rfl hne (hroom rfl (length_lt_of_append hrest hne))
  | flushing => exact exists_step?_flush rfl
  | accepted | rejected => cases hr

section Agent

variable {m : Agent.Serving} (h : AgentAt client agent payload hungUp m sent read)
include h

theorem AgentAt.flushed {next : Except IoError Unit → Agent.Serving}
    (ha : action m = .flush next) :
    AgentAt client agent payload hungUp (next (.ok ())) sent read := by
  cases h with
  | writing | reading | draining | accepted | rejected => cases ha
  | flushing =>
    cases ha
    exact .reading (by decide)

theorem AgentAt.wrote {count : Nat} {next : Except IoError Nat → Agent.Serving}
    (ha : action m = .write bytes next) (hpos : 0 < count) :
    AgentAt client agent payload hungUp (next (.ok count)) (sent ++ bytes.take count) read := by
  cases h with
  | flushing | reading | draining | accepted | rejected => cases ha
  | writing hrest hne =>
    cases ha
    dsimp only
    rcases Sending.afterWrite_ok hpos with ⟨hleft, hw⟩ | ⟨hall, hw⟩
    · rw [hw]
      exact .writing (by rw [List.append_assoc, List.take_append_drop, hrest]) hleft
    · rw [hw, hall, hrest]
      exact .flushing

/-- The agent never asks for a byte beyond the client's version before it has decided. -/
theorem AgentAt.took {limit : Nat} {next : Except IoError (List UInt8) → Agent.Serving}
    (ha : action m = .read limit next) (hb : bytes ≠ []) (hle : bytes.length ≤ limit)
    (hc : client.isCompatibleWith agent = true) (hw : read ++ bytes <+: client.toWire ++ payload) :
    AgentAt client agent payload hungUp (next (.ok bytes)) sent (read ++ bytes) := by
  cases h with
  | writing | flushing | accepted | rejected => cases ha
  | reading hlt =>
    cases ha
    dsimp only
    have hsize : (read ++ bytes).length ≤ client.toWire.length := by
      rw [List.length_append, length_toWire]
      omega
    have hwire : read ++ bytes <+: client.toWire :=
      List.prefix_of_prefix_length_le hw (List.prefix_append _ _) hsize
    rcases Nat.lt_or_ge (read ++ bytes).length wireSize with hlt' | hge
    · rw [Receiving.afterRead_of_lt hb hlt']
      exact .reading hlt'
    · have hall : read ++ bytes = client.toWire := hwire.eq_of_length_le hge
      have hc' : agent.isCompatibleWith client = true := by rw [isCompatibleWith_comm, hc]
      rw [Receiving.afterRead_of_le hb hge, hall, ofWire_toWire]
      simp only [Agent.Serving.afterReceiving, check_untagged hc']
      have hdrain : AgentAt client agent payload hungUp .draining agent.toWire
          (client.toWire ++ []) := .draining hc
      rwa [List.append_nil] at hdrain
  | draining _ =>
    cases ha
    rw [List.append_assoc]
    cases bytes with
    | nil => exact absurd rfl hb
    | cons b bs => exact .draining hc

/-- The end of the stream is a success only once the client's version and all that follows it have
been read. -/
theorem AgentAt.ended {limit : Nat} {next : Except IoError (List UInt8) → Agent.Serving}
    (ha : action m = .read limit next) (hclosed : hungUp = true)
    (hend : client.isCompatibleWith agent = true ∧ read = client.toWire ++ payload ∨
      client.isCompatibleWith agent = false ∧ read = []) :
    AgentAt client agent payload hungUp (next (.ok [])) sent read := by
  cases h with
  | writing | flushing | accepted | rejected => cases ha
  | reading hlt =>
    cases ha
    rcases hend with ⟨-, rfl⟩ | ⟨hc, rfl⟩
    · rw [List.length_append, length_toWire] at hlt
      omega
    · exact .rejected hclosed hc
  | draining hc =>
    cases ha
    rcases hend with ⟨-, hall⟩ | ⟨-, hnil⟩
    · rw [hall]
      exact .accepted hclosed hc
    · exact absurd (List.append_eq_nil_iff.1 hnil).1 (toWire_ne_nil client)

theorem AgentAt.length_sent_lt {next : Except IoError Nat → Agent.Serving}
    (ha : action m = .write bytes next) : sent.length < wireSize := by
  cases h with
  | flushing | reading | draining | accepted | rejected => cases ha
  | writing hrest hne => exact length_lt_of_append hrest hne

end Agent

/-- A step of the agent between two pipes, when its incoming one ends only after everything. -/
theorem AgentAt.moved {capacity : Nat} {e e' : PipeEnd Agent.Serving}
    (h : AgentAt client agent payload e.incoming.closed e.machine sent read)
    (hm : Moved capacity e e')
    (hin : read ++ e.incoming.content <+: client.toWire ++ payload)
    (hc : read ++ e.incoming.content ≠ [] → client.isCompatibleWith agent = true)
    (hend : e.incoming.closed = true → e.incoming.content = [] →
      client.isCompatibleWith agent = true ∧ read = client.toWire ++ payload ∨
        client.isCompatibleWith agent = false ∧ read = []) :
    ∃ read', read' ++ e'.incoming.content = read ++ e.incoming.content ∧
      AgentAt client agent payload e'.incoming.closed e'.machine
        (sent ++ e'.outgoing.content.drop e.outgoing.content.length) read' := by
  cases hm with
  | flushed ha =>
    refine ⟨read, rfl, ?_⟩
    rw [List.drop_length, List.append_nil]
    exact h.flushed ha
  | wrote ha hpos =>
    refine ⟨read, rfl, ?_⟩
    rw [List.drop_left]
    exact h.wrote ha hpos
  | ended ha hnil hclosed =>
    refine ⟨read, rfl, ?_⟩
    rw [List.drop_length, List.append_nil]
    exact h.ended ha hclosed (hend hclosed hnil)
  | @read limit next count ha hpos hle hcount =>
    have hne := take_ne_nil hpos hcount
    have hsplit := append_take_append_drop read e.incoming.content count
    refine ⟨read ++ e.incoming.content.take count, hsplit, ?_⟩
    rw [List.drop_length, List.append_nil]
    rw [← hsplit] at hin hc
    refine h.took ha hne (Nat.le_trans (List.length_take_le _ _) hle) (hc ?_)
      ((List.prefix_append _ _).trans hin)
    intro hnil
    exact hne (List.append_eq_nil_iff.1 (List.append_eq_nil_iff.1 hnil).1).2

theorem AgentAt.exists_step? {capacity : Nat} {e : PipeEnd Agent.Serving}
    (h : AgentAt client agent payload e.incoming.closed e.machine sent read) (hr : e.result? = none)
    (hin : sent = agent.toWire → e.incoming.content ≠ [] ∨ e.incoming.closed = true)
    (hroom : sent.length < wireSize → e.outgoing.content.length < capacity) :
    ∃ e', e.step? capacity 1 = some e' := by
  obtain ⟨m, incoming, outgoing⟩ := e
  cases h with
  | writing hrest hne => exact exists_step?_write rfl hne (hroom (length_lt_of_append hrest hne))
  | flushing => exact exists_step?_flush rfl
  | reading hread => exact exists_step?_read rfl (Nat.sub_pos_of_lt hread) (hin rfl)
  | draining => exact exists_step?_read rfl (by decide) (hin rfl)
  | accepted | rejected => cases hr

end Steps

end RemoteAgent
