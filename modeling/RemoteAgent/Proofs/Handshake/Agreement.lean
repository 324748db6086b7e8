import Mathlib.Data.List.Chain
import RemoteAgent.Proofs.Handshake.Invariant

/-! # Handshakes agree

However the two sides of an exchange take turns, and however their bytes are cut up, the exchange is
never stuck and comes to an end, and either both sides accept or both refuse.
-/

namespace RemoteAgent

open Dial Relation StreamMachine PipeEnd Version

namespace Exchange

section Progress

variable {clientCapacity agentCapacity : Nat} {client agent : Version} {payload : List UInt8}
  {x : Exchange}

theorem Inv.exists_agentStep (i : Inv client agent payload x) (hs : x.served? = none)
    (hin : x.sentByAgent = agent.toWire → x.toAgent.content ≠ [] ∨ x.toAgent.closed = true)
    (hroom : x.sentByAgent.length < wireSize → x.toClient.content.length < clientCapacity) :
    ∃ y, Step clientCapacity agentCapacity x y := by
  obtain ⟨read, -, h⟩ := i.agentAt
  obtain ⟨e, he⟩ := AgentAt.exists_step? (e := x.agentEnd) h hs hin hroom
  exact ⟨_, .agent he⟩

theorem Inv.exists_step_of_full (i : Inv client agent payload x)
    (hsent : x.sentByAgent = agent.toWire) (hfull : x.toAgent.content ≠ []) :
    ∃ y, Step clientCapacity agentCapacity x y := by
  refine i.exists_agentStep ?_ (fun _ => .inl hfull) fun hlt => ?_
  · by_contra hs
    obtain ⟨result, hr⟩ := Option.ne_none_iff_exists'.1 hs
    exact hfull (i.served hr).1
  · rw [hsent, length_toWire] at hlt
    exact absurd hlt (Nat.lt_irrefl _)

theorem Inv.exists_step_of_empty (i : Inv client agent payload x) (hc : 0 < clientCapacity)
    (hlt : x.sentByAgent.length < wireSize) (hnil : x.toClient.content = []) :
    ∃ y, Step clientCapacity agentCapacity x y := by
  have hne : x.sentByAgent ≠ agent.toWire := by
    intro hall
    rw [hall, length_toWire] at hlt
    exact Nat.lt_irrefl _ hlt
  refine i.exists_agentStep ?_ (fun hall => absurd hall hne) fun _ => ?_
  · by_contra hs
    exact hne (i.sentByAgent_of_left (Option.isSome_iff_ne_none.2 hs))
  · rw [hnil]
    exact hc

/-- While the greeting goes on, the client can go on or the agent can. -/
theorem Inv.exists_step_of_greeting (i : Inv client agent payload x) (hc : 0 < clientCapacity)
    (ha : 0 < agentCapacity) (hg : x.greeted? = none) :
    ∃ y, Step clientCapacity agentCapacity x y := by
  obtain ⟨read, hread, h⟩ := i.clientAt
  by_cases hwait : read.length < wireSize ∧ x.toClient.content = []
  · -- The client waits for bytes that the agent has still to write.
    obtain ⟨hlt, hnil⟩ := hwait
    rw [hnil, List.append_nil] at hread
    subst hread
    exact i.exists_step_of_empty hc hlt hnil
  by_cases hfull : read = agent.toWire ∧ agentCapacity ≤ x.toAgent.content.length
  · -- The client waits for room: there are bytes that the agent can take.
    obtain ⟨rfl, hle⟩ := hfull
    have hall : x.sentByAgent = agent.toWire := by
      apply i.sentByAgent_isPrefix.eq_of_length_le
      rw [← hread, List.length_append]
      exact Nat.le_add_right _ _
    exact i.exists_step_of_full hall (List.length_pos_iff.1 (Nat.lt_of_lt_of_le ha hle))
  have hin : read.length < wireSize → x.toClient.content ≠ [] ∨ x.toClient.closed = true :=
    fun hlt => .inl fun hnil => hwait ⟨hlt, hnil⟩
  have hroom : read = agent.toWire → x.sentByClient.length < wireSize →
      x.toAgent.content.length < agentCapacity :=
    fun hall _ => Nat.not_le.1 fun hle => hfull ⟨hall, hle⟩
  obtain ⟨e, he⟩ := ClientAt.exists_step? (e := x.clientEnd) h hg hin hroom
  exact ⟨_, .client he⟩

/-- An exchange that has not finished is never stuck. -/
theorem Inv.exists_step (i : Inv client agent payload x) (hc : 0 < clientCapacity)
    (ha : 0 < agentCapacity) (hf : ¬ x.IsFinished) :
    ∃ y, Step clientCapacity agentCapacity x y := by
  cases hg : x.greeted? with
  | none => exact i.exists_step_of_greeting hc ha hg
  | some result =>
    obtain ⟨hsent, hnil⟩ := i.sentByAgent_of_greeted hg
    cases hclosed : x.toAgent.closed with
    | true =>
      have hs : x.served? = none := by
        by_contra hs
        exact hf ⟨by rw [hg]; rfl, Option.isSome_iff_ne_none.2 hs, hclosed⟩
      refine i.exists_agentStep hs (fun _ => .inr hclosed) fun _ => ?_
      rw [hnil]
      exact hc
    | false =>
      by_cases hdone : x.IsDone
      · exact ⟨_, .hangUp hdone hclosed⟩
      · have hok : result = .ok () := by
          by_contra hne
          exact hdone ⟨result, hg, fun h => absurd h hne⟩
        have hpending : x.pending ≠ [] := fun h => hdone ⟨result, hg, fun _ => h⟩
        rw [hok] at hg
        rcases Nat.lt_or_ge x.toAgent.content.length agentCapacity with hroom | hfull
        · exact ⟨_, .speak hg hclosed Nat.one_pos (List.length_pos_iff.2 hpending) hroom⟩
        · exact i.exists_step_of_full hsent
            (List.length_pos_iff.1 (Nat.lt_of_lt_of_le ha hfull))

end Progress

section Ending

/-- What can still happen: each byte is to be written and read, each side to move on and leave. -/
def remaining (payload : List UInt8) (x : Exchange) : Nat :=
  rank x.client + rank x.agent + x.toClient.content.length + x.toAgent.content.length +
    (wireSize - x.sentByAgent.length) +
    (wireSize + payload.length - x.sentByClient.length) + x.pending.length +
    (!x.toClient.closed).toNat + (!x.toAgent.closed).toNat

variable {clientCapacity agentCapacity : Nat} {client agent : Version} {payload : List UInt8}
  {x y : Exchange}

theorem remaining_start :
    (start client agent payload).remaining payload = 60 + 2 * payload.length := by
  have hclient : rank (start client agent payload).client = 17 := rfl
  have hagent : rank (start client agent payload).agent = 17 := rfl
  unfold remaining
  rw [hclient, hagent]
  simp only [start, Pipe.empty, List.length_nil, wireSize, Bool.not_false, Bool.toNat_true]
  omega

theorem Inv.remaining_lt (i : Inv client agent payload x)
    (h : Step clientCapacity agentCapacity x y) : y.remaining payload < x.remaining payload := by
  have hclient := (i.step h).sentByClient_isPrefix.length_le
  have hagent := (i.step h).sentByAgent_isPrefix.length_le
  rw [List.length_append, length_toWire] at hclient
  rw [length_toWire] at hagent
  unfold remaining
  cases h with
  | @client grain e h =>
    have hm := moved h
    obtain ⟨hincoming, houtgoing⟩ := hm.closed
    have hlt := hm.lowers
    have hout := congrArg List.length hm.outgoing
    simp only [withClient, clientEnd, List.length_append] at *
    rw [hincoming, houtgoing]
    omega
  | @agent grain e h =>
    have hm := moved h
    obtain ⟨hincoming, houtgoing⟩ := hm.closed
    have hlt := hm.lowers
    have hout := congrArg List.length hm.outgoing
    simp only [withAgent, agentEnd, List.length_append] at *
    rw [hincoming, houtgoing]
    omega
  | @speak count hg hopen hpos hle hroom =>
    simp only [List.length_append, List.length_take, List.length_drop] at hclient ⊢
    omega
  | hangUp hdone hopen =>
    simp only [hopen, Bool.not_true, Bool.not_false, Bool.toNat_true, Bool.toNat_false]
    omega
  | leave hserved hopen =>
    simp only [hopen, Bool.not_true, Bool.not_false, Bool.toNat_true, Bool.toNat_false]
    omega
  | clientBroken ha hserved => exact (i.not_clientBroken ha hserved).elim
  | agentBroken ha hclosed => exact (i.not_agentBroken ha hclosed).elim

theorem Inv.length_run_le {run : List Exchange} (i : Inv client agent payload x)
    (h : (x :: run).IsChain (Step clientCapacity agentCapacity)) :
    run.length ≤ x.remaining payload := by
  induction run generalizing x with
  | nil => exact Nat.zero_le _
  | cons y run ih =>
    rw [List.isChain_cons_cons] at h
    have hlt := i.remaining_lt h.1
    have hle := ih (i.step h.1) h.2
    rw [List.length_cons]
    omega

/-- Whatever steps an exchange has taken, it can still be brought to its end. -/
theorem Inv.exists_finished (i : Inv client agent payload x) (hc : 0 < clientCapacity)
    (ha : 0 < agentCapacity) :
    ∃ y, ReflTransGen (Step clientCapacity agentCapacity) x y ∧ y.IsFinished := by
  induction hn : x.remaining payload using Nat.strong_induction_on generalizing x with
  | _ n ih =>
    by_cases hf : x.IsFinished
    · exact ⟨x, .refl, hf⟩
    · obtain ⟨y, hy⟩ := i.exists_step hc ha hf
      obtain ⟨z, hz, hfinished⟩ := ih _ (hn ▸ i.remaining_lt hy) (i.step hy) rfl
      exact ⟨z, .head hy hz, hfinished⟩

end Ending

section Outcomes

/-- What has come of an exchange so far when the two versions agree. -/
structure Accepts (client agent : Version) (payload : List UInt8) (x : Exchange) : Prop where
  greeted : ∀ result, x.greeted? = some result → result = .ok ()
  served : ∀ result, x.served? = some result → result = .ok ()
  greeting : x.greeted? = none → x.sentByClient <+: client.toWire ∧ x.pending = payload
  /-- When the client goes on to its own bytes, the versions are all that has passed before. -/
  accepted : x.greeted? = some (.ok ()) → x.sentByAgent = agent.toWire ∧ x.toClient.content = [] ∧
    ∃ said, x.sentByClient = client.toWire ++ said ∧ said ++ x.pending = payload
  drained : x.served? = some (.ok ()) → x.greeted? = some (.ok ()) ∧
    x.sentByClient = client.toWire ++ payload ∧ x.toAgent.content = []

/-- What has come of an exchange so far when the two versions differ. -/
structure Refuses (client agent : Version) (x : Exchange) : Prop where
  greeted : ∀ result, x.greeted? = some result →
    result = .error (.versionMismatch agent.untagged client)
  served : ∀ result, x.served? = some result →
    result = .error (.protocol (.truncated 0 wireSize))
  silent : x.sentByClient = []

variable {client agent : Version} {payload : List UInt8} {x : Exchange}

theorem Inv.accepts (i : Inv client agent payload x)
    (hc : client.isCompatibleWith agent = true) : x.Accepts client agent payload where
  greeted result hr := by
    rcases i.greeted hr with ⟨-, hok, -⟩ | ⟨hc', -⟩
    · exact hok
    · exact nomatch hc.symm.trans hc'
  served result hr := by
    obtain ⟨-, -, ⟨-, hok, -⟩ | ⟨hc', -⟩⟩ := i.served hr
    · exact hok
    · exact nomatch hc.symm.trans hc'
  greeting := i.greeting
  accepted hr := by
    obtain ⟨hsent, hnil⟩ := i.sentByAgent_of_greeted hr
    rcases i.greeted hr with ⟨-, -, hsaid⟩ | ⟨hc', -⟩
    · exact ⟨hsent, hnil, hsaid⟩
    · exact nomatch hc.symm.trans hc'
  drained hr := by
    obtain ⟨hnil, hclosed, ⟨-, -, hsent⟩ | ⟨hc', -⟩⟩ := i.served hr
    · obtain ⟨result, hg, -⟩ := i.done hclosed
      rcases i.greeted hg with ⟨-, rfl, -⟩ | ⟨hc', -⟩
      · exact ⟨hg, hsent, hnil⟩
      · exact nomatch hc.symm.trans hc'
    · exact nomatch hc.symm.trans hc'

theorem Inv.refuses (i : Inv client agent payload x)
    (hc : client.isCompatibleWith agent = false) : x.Refuses client agent where
  greeted result hr := by
    rcases i.greeted hr with ⟨hc', -⟩ | ⟨-, hmismatch, -⟩
    · exact nomatch hc.symm.trans hc'
    · exact hmismatch
  served result hr := by
    obtain ⟨-, -, ⟨hc', -⟩ | ⟨-, htruncated, -⟩⟩ := i.served hr
    · exact nomatch hc.symm.trans hc'
    · exact htruncated
  silent := by
    by_contra hne
    exact nomatch hc.symm.trans (i.compatible hne)

end Outcomes

/-- Over pipes that hold at least a byte, every exchange of two versions comes to its end without
getting stuck. If the versions agree, both sides accept, each has sent its version before the client
says anything else, and the agent takes in all of that. If they differ, the client says which
version it found and never writes, and the agent misses the whole of the client's version. -/
theorem exchange_agreement (client agent : Version) (payload : List UInt8)
    {clientCapacity agentCapacity : Nat} (hc : 0 < clientCapacity) (ha : 0 < agentCapacity) :
    (∀ run, (start client agent payload :: run).IsChain (Step clientCapacity agentCapacity) →
      run.length ≤ 60 + 2 * payload.length) ∧
    ∀ x, ReflTransGen (Step clientCapacity agentCapacity) (start client agent payload) x →
      (¬ x.IsFinished → ∃ y, Step clientCapacity agentCapacity x y) ∧
      (∃ y, ReflTransGen (Step clientCapacity agentCapacity) x y ∧ y.IsFinished) ∧
      (client.untagged = agent.untagged → x.Accepts client agent payload) ∧
      (client.untagged ≠ agent.untagged → x.Refuses client agent) := by
  constructor
  · intro run hrun
    have hle := inv_start.length_run_le hrun
    rw [remaining_start] at hle
    exact hle
  · intro x hx
    have i := inv_of_reaches hx
    refine ⟨i.exists_step hc ha, i.exists_finished hc ha, fun heq => i.accepts ?_,
      fun hne => i.refuses ?_⟩
    · exact (isCompatibleWith_iff client agent).2 heq
    · rw [← Bool.not_eq_true, isCompatibleWith_iff]
      exact hne

/-- A tag makes no difference, a patch does. -/
theorem exchange_agreement_patch :
    (∃ x, ReflTransGen (Step 12 12) (start ⟨1, 2, 3, some "beta"⟩ ⟨1, 2, 3, none⟩ [7]) x ∧
      x.IsFinished ∧ x.Accepts ⟨1, 2, 3, some "beta"⟩ ⟨1, 2, 3, none⟩ [7]) ∧
    (∃ x, ReflTransGen (Step 12 12) (start ⟨1, 2, 3, none⟩ ⟨1, 2, 4, none⟩ [7]) x ∧
      x.IsFinished ∧ x.Refuses ⟨1, 2, 3, none⟩ ⟨1, 2, 4, none⟩) := by
  have hpos : 0 < 12 := by decide
  constructor
  · have h : ReflTransGen (Step 12 12) (start ⟨1, 2, 3, some "beta"⟩ ⟨1, 2, 3, none⟩ [7]) _ :=
      .tail (.tail (.tail (.tail (.tail (.tail (.tail (.tail (.tail (.tail .refl
        (@Step.agent _ _ _ 12 _ rfl)) (@Step.client _ _ _ 12 _ rfl))
        (@Step.agent _ _ _ 12 _ rfl)) (@Step.client _ _ _ 12 _ rfl))
        (@Step.client _ _ _ 12 _ rfl)) (@Step.agent _ _ _ 12 _ rfl))
        (@Step.speak _ _ _ 1 rfl rfl (by decide) (by decide) (by decide)))
        (@Step.agent _ _ _ 12 _ rfl)) (.hangUp ⟨_, rfl, fun _ => rfl⟩ rfl))
        (@Step.agent _ _ _ 12 _ rfl)
    obtain ⟨-, -, haccepts, -⟩ := (exchange_agreement _ _ _ hpos hpos).2 _ h
    exact ⟨_, h, ⟨rfl, rfl, rfl⟩, haccepts rfl⟩
  · have h : ReflTransGen (Step 12 12) (start ⟨1, 2, 3, none⟩ ⟨1, 2, 4, none⟩ [7]) _ :=
      .tail (.tail (.tail (.tail (.tail .refl
        (@Step.agent _ _ _ 12 _ rfl)) (@Step.client _ _ _ 12 _ rfl))
        (@Step.agent _ _ _ 12 _ rfl)) (.hangUp ⟨_, rfl, nofun⟩ rfl))
        (@Step.agent _ _ _ 12 _ rfl)
    obtain ⟨-, -, -, hrefuses⟩ := (exchange_agreement _ _ _ hpos hpos).2 _ h
    exact ⟨_, h, ⟨rfl, rfl, rfl⟩, hrefuses (by decide)⟩

end Exchange

end RemoteAgent
