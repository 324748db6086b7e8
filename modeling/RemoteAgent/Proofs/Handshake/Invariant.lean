import Mathlib.Tactic.ByContra
import RemoteAgent.Proofs.Handshake.Sides

/-! # What the steps of an exchange keep

What is in a pipe is what one side has written and the other has not read, so the place of each side
says what the other one knows. A side that has finished has been waited for.
-/

namespace RemoteAgent

open Dial Relation StreamMachine PipeEnd Version

namespace Exchange

section Invariant

/-- The places of the two sides and the bytes between them fit together. -/
structure Inv (client agent : Version) (payload : List UInt8) (x : Exchange) : Prop where
  clientAt : ∃ read, read ++ x.toClient.content = x.sentByAgent ∧
    ClientAt client agent payload x.client x.sentByClient read x.pending
  agentAt : ∃ read, read ++ x.toAgent.content = x.sentByClient ∧
    AgentAt client agent payload x.toAgent.closed x.agent x.sentByAgent read
  done : x.toAgent.closed = true → x.IsDone
  left : x.toClient.closed = true → x.served?.isSome = true

variable {clientCapacity agentCapacity : Nat} {client agent : Version} {payload : List UInt8}
  {x y : Exchange}

theorem inv_start : Inv client agent payload (start client agent payload) where
  clientAt := ⟨[], rfl, .start⟩
  agentAt := ⟨[], rfl, .start⟩
  done h := nomatch h
  left h := nomatch h

theorem Inv.sentByAgent_isPrefix (i : Inv client agent payload x) :
    x.sentByAgent <+: agent.toWire := by
  obtain ⟨read, -, h⟩ := i.agentAt
  exact h.sent_isPrefix

theorem Inv.sentByClient_isPrefix (i : Inv client agent payload x) :
    x.sentByClient <+: client.toWire ++ payload := by
  obtain ⟨read, -, h⟩ := i.clientAt
  exact h.sent_isPrefix

theorem Inv.compatible (i : Inv client agent payload x) (hs : x.sentByClient ≠ []) :
    client.isCompatibleWith agent = true := by
  obtain ⟨read, -, h⟩ := i.clientAt
  exact h.compatible hs

theorem Inv.sentByAgent_of_left (i : Inv client agent payload x)
    (hs : x.served?.isSome = true) : x.sentByAgent = agent.toWire := by
  obtain ⟨read, -, h⟩ := i.agentAt
  unfold served? agentEnd at hs
  generalize x.agent = m, x.sentByAgent = sent at h hs
  cases h with
  | writing => cases hs
  | flushing | reading | draining | accepted | rejected => rfl

/-- While the greeting goes on, the client writes nothing but its version. -/
theorem Inv.greeting (i : Inv client agent payload x) (hg : x.greeted? = none) :
    x.sentByClient <+: client.toWire ∧ x.pending = payload := by
  obtain ⟨read, -, h⟩ := i.clientAt
  unfold greeted? clientEnd at hg
  generalize x.client = m, x.sentByClient = sent, x.pending = pending at h hg
  cases h with
  | reading => exact ⟨List.nil_prefix, rfl⟩
  | writing _ hrest => exact ⟨⟨_, hrest⟩, rfl⟩
  | flushing => exact ⟨List.prefix_rfl, rfl⟩
  | accepted | rejected => cases hg

/-- The versions decide what the greeting comes to, and whether the client goes on to speak. -/
theorem Inv.greeted (i : Inv client agent payload x) {result : Except DialError Unit}
    (hr : x.greeted? = some result) :
    (client.isCompatibleWith agent = true ∧ result = .ok () ∧
      ∃ said, x.sentByClient = client.toWire ++ said ∧ said ++ x.pending = payload) ∨
    (client.isCompatibleWith agent = false ∧
      result = .error (.versionMismatch agent.untagged client) ∧ x.sentByClient = []) := by
  obtain ⟨read, -, h⟩ := i.clientAt
  unfold greeted? clientEnd at hr
  generalize x.client = m, x.sentByClient = sent, x.pending = pending at h hr ⊢
  cases h with
  | reading | writing | flushing => cases hr
  | accepted hc hsaid =>
    cases hr
    exact .inl ⟨hc, rfl, _, rfl, hsaid⟩
  | rejected hc =>
    cases hr
    exact .inr ⟨hc, rfl, rfl⟩

theorem Inv.sentByClient_of_done (i : Inv client agent payload x) (hd : x.IsDone) :
    client.isCompatibleWith agent = true ∧ x.sentByClient = client.toWire ++ payload ∨
      client.isCompatibleWith agent = false ∧ x.sentByClient = [] := by
  obtain ⟨result, hr, hp⟩ := hd
  rcases i.greeted hr with ⟨hc, rfl, said, hsent, hsaid⟩ | ⟨hc, -, hsent⟩
  · rw [hp rfl, List.append_nil] at hsaid
    rw [hsent, hsaid]
    exact .inl ⟨hc, rfl⟩
  · exact .inr ⟨hc, hsent⟩

theorem Inv.sentByAgent_of_greeted (i : Inv client agent payload x) {result : Except DialError Unit}
    (hr : x.greeted? = some result) : x.sentByAgent = agent.toWire ∧ x.toClient.content = [] := by
  have hprefix := i.sentByAgent_isPrefix
  obtain ⟨read, hread, h⟩ := i.clientAt
  rw [← hread] at hprefix ⊢
  have hall : read = agent.toWire := by
    unfold greeted? clientEnd at hr
    generalize x.client = m, x.sentByClient = sent, x.pending = pending at h hr
    cases h with
    | reading | writing | flushing => cases hr
    | accepted | rejected => rfl
  subst hall
  have hle := hprefix.length_le
  rw [List.length_append] at hle
  have hnil : x.toClient.content = [] := List.eq_nil_of_length_eq_zero (by omega)
  rw [hnil, List.append_nil]
  exact ⟨rfl, rfl⟩

/-- An agent that has finished has taken everything, and the client has sent everything. -/
theorem Inv.served (i : Inv client agent payload x) {result : Except AgentError Unit}
    (hr : x.served? = some result) :
    x.toAgent.content = [] ∧ x.toAgent.closed = true ∧
      ((client.isCompatibleWith agent = true ∧ result = .ok () ∧
        x.sentByClient = client.toWire ++ payload) ∨
      (client.isCompatibleWith agent = false ∧
        result = .error (.protocol (.truncated 0 wireSize)) ∧ x.sentByClient = [])) := by
  have hprefix := i.sentByClient_isPrefix
  have hcompat := i.compatible
  obtain ⟨read, hread, h⟩ := i.agentAt
  rw [← hread] at hprefix hcompat ⊢
  unfold served? agentEnd at hr
  generalize x.agent = m, x.sentByAgent = sent at h hr
  cases h with
  | writing | flushing | reading | draining => cases hr
  | accepted hclosed hc =>
    cases hr
    have hle := hprefix.length_le
    rw [List.length_append] at hle
    have hnil : x.toAgent.content = [] := List.eq_nil_of_length_eq_zero (by omega)
    rw [hnil, List.append_nil]
    exact ⟨rfl, hclosed, .inl ⟨hc, rfl, rfl⟩⟩
  | rejected hclosed hc =>
    cases hr
    rw [List.nil_append] at hcompat ⊢
    have hnil : x.toAgent.content = [] := by
      by_contra hne
      rw [hcompat hne] at hc
      cases hc
    exact ⟨hnil, hclosed, .inr ⟨hc, rfl, hnil⟩⟩

end Invariant

section Preservation

variable {clientCapacity agentCapacity : Nat} {client agent : Version} {payload : List UInt8}
  {x y : Exchange}

theorem Inv.client_moved (i : Inv client agent payload x) {e : PipeEnd Greeting}
    (hm : Moved agentCapacity x.clientEnd e) : Inv client agent payload (x.withClient e) := by
  obtain ⟨hincoming, houtgoing⟩ := hm.closed
  refine ⟨?_, ?_, ?_, ?_⟩
  · obtain ⟨read, hread, h⟩ := i.clientAt
    have hprefix := i.sentByAgent_isPrefix
    rw [← hread] at hprefix
    obtain ⟨read', hread', h'⟩ := ClientAt.moved h hm hprefix fun hclosed hnil => by
      have hall := i.sentByAgent_of_left (i.left hclosed)
      rwa [← hread, show x.toClient.content = [] from hnil, List.append_nil] at hall
    exact ⟨read', hread'.trans hread, h'⟩
  · obtain ⟨read, hread, h⟩ := i.agentAt
    refine ⟨read, ?_, houtgoing ▸ h⟩
    dsimp only [withClient]
    rw [← hread, List.append_assoc]
    exact congrArg (read ++ ·) hm.outgoing
  · intro hclosed
    obtain ⟨result, hr, -⟩ := i.done (houtgoing.symm.trans hclosed)
    exact nomatch hr.symm.trans hm.result?_eq_none
  · intro hclosed
    exact i.left (hincoming.symm.trans hclosed)

theorem Inv.agent_moved (i : Inv client agent payload x) {e : PipeEnd Agent.Serving}
    (hm : Moved clientCapacity x.agentEnd e) : Inv client agent payload (x.withAgent e) := by
  obtain ⟨hincoming, houtgoing⟩ := hm.closed
  refine ⟨?_, ?_, ?_, ?_⟩
  · obtain ⟨read, hread, h⟩ := i.clientAt
    refine ⟨read, ?_, h⟩
    dsimp only [withAgent]
    rw [← hread, List.append_assoc]
    exact congrArg (read ++ ·) hm.outgoing
  · obtain ⟨read, hread, h⟩ := i.agentAt
    have hprefix := i.sentByClient_isPrefix
    have hcompat := i.compatible
    rw [← hread] at hprefix hcompat
    obtain ⟨read', hread', h'⟩ := AgentAt.moved h hm hprefix hcompat fun hclosed hnil => by
      have hall := i.sentByClient_of_done (i.done hclosed)
      rwa [← hread, show x.toAgent.content = [] from hnil, List.append_nil] at hall
    exact ⟨read', hread'.trans hread, h'⟩
  · intro hclosed
    exact i.done (hincoming.symm.trans hclosed)
  · intro hclosed
    have hserved := i.left (houtgoing.symm.trans hclosed)
    rw [served?, hm.result?_eq_none] at hserved
    exact nomatch hserved

theorem Inv.not_clientBroken (i : Inv client agent payload x) {bytes : List UInt8}
    {next : Except IoError Nat → Greeting} (ha : action x.client = .write bytes next)
    (hs : x.served?.isSome = true) : False := by
  obtain ⟨read, -, h⟩ := i.clientAt
  obtain ⟨hc, hlt⟩ := h.length_sent_lt ha
  obtain ⟨result, hr⟩ := Option.isSome_iff_exists.1 hs
  obtain ⟨-, -, ⟨-, -, hall⟩ | ⟨hc', -⟩⟩ := i.served hr
  · rw [hall, List.length_append, length_toWire] at hlt
    omega
  · rw [hc] at hc'
    cases hc'

/-- A client does not hang up before the agent has written all it will. -/
theorem Inv.not_agentBroken (i : Inv client agent payload x) {bytes : List UInt8}
    {next : Except IoError Nat → Agent.Serving} (ha : action x.agent = .write bytes next)
    (hclosed : x.toAgent.closed = true) : False := by
  obtain ⟨read, -, h⟩ := i.agentAt
  obtain ⟨result, hr, -⟩ := i.done hclosed
  have hlt := h.length_sent_lt ha
  rw [(i.sentByAgent_of_greeted hr).1, length_toWire] at hlt
  exact Nat.lt_irrefl _ hlt

theorem Inv.step (i : Inv client agent payload x) (h : Step clientCapacity agentCapacity x y) :
    Inv client agent payload y := by
  cases h with
  | client h => exact i.client_moved (moved h)
  | agent h => exact i.agent_moved (moved h)
  | @speak count hg hopen hpos hle hroom =>
    refine ⟨?_, ?_, ?_, i.left⟩
    · obtain ⟨read, hread, h⟩ := i.clientAt
      exact ⟨read, hread, ClientAt.spoke (e := x.clientEnd) h hg count⟩
    · obtain ⟨read, hread, h⟩ := i.agentAt
      exact ⟨read, by rw [← hread, List.append_assoc], h⟩
    · intro hclosed
      exact nomatch hopen.symm.trans hclosed
  | hangUp hdone hopen =>
    obtain ⟨read, hread, h⟩ := i.agentAt
    exact ⟨i.clientAt, ⟨read, hread, h.hangUp⟩, fun _ => hdone, i.left⟩
  | leave hserved hopen => exact ⟨i.clientAt, i.agentAt, i.done, fun _ => hserved⟩
  | clientBroken ha hserved => exact (i.not_clientBroken ha hserved).elim
  | agentBroken ha hclosed => exact (i.not_agentBroken ha hclosed).elim

theorem inv_of_reaches (h : ReflTransGen (Step clientCapacity agentCapacity)
    (start client agent payload) x) : Inv client agent payload x := by
  induction h with
  | refl => exact inv_start
  | tail _ h ih => exact ih.step h

end Preservation

end Exchange

end RemoteAgent
