import RemoteAgent.Agent.Serving
import RemoteAgent.Proofs.Handshake.Receiving
import RemoteAgent.Proofs.History
import RemoteAgent.Proofs.Stream.Recording

/-! # The agent speaks first

An agent that serves a stream writes its version, flushes, and from then on only reads. What it
comes to depends on the version that it reads and on what follows it up to the end of the stream. A
write that is interrupted is made again, and so is a read after the version.
-/

namespace RemoteAgent.Agent

open StreamMachine StreamCall Signal Receiving

variable {own : Version}

section Speaking

variable {calls : List StreamCall} {call : StreamCall}

/-- A write after which writing goes on: something of the offer was taken, or it was interrupted. -/
def GoesOn : StreamCall → Prop
  | .write _ (.ok count) => 0 < count
  | .write _ (.error cause) => cause.kind = .interrupted
  | .flush _ | .read .. => False

/-- A write or a flush that ends the serving, and the reason. -/
inductive Fails : StreamCall → IoError → Prop where

  | nothing {offered : List UInt8} : Fails (.write offered (.ok 0)) .writeZero

  | write {offered : List UInt8} {cause : IoError} : cause.kind ≠ .interrupted →
      Fails (.write offered (.error cause)) cause

  | flush {cause : IoError} : Fails (.flush (.error cause)) cause

/-- The whole version has been accepted and flushed. -/
def Spoken (own : Version) (calls : List StreamCall) : Prop :=
  accepted calls = own.toWire ∧ .flush (.ok ()) ∈ calls

/-- Whether a call may come after the ones before it. A write comes only after writes and offers
what is left of the version, and a read comes only once the version has been spoken. -/
def MayFollow (own : Version) (before : List StreamCall) : StreamCall → Prop
  | .write offered _ =>
    offered ≠ [] ∧ accepted before ++ offered = own.toWire ∧ ∀ c ∈ before, GoesOn c
  | .flush _ => accepted before = own.toWire ∧ ∀ c ∈ before, GoesOn c
  | .read .. => Spoken own before

/-- What is accepted never leaves the version. -/
theorem accepted_isPrefix (h : Follows (MayFollow own) calls) : accepted calls <+: own.toWire := by
  rcases List.eq_nil_or_concat calls with rfl | ⟨before, call, rfl⟩
  · exact List.nil_prefix
  rw [List.concat_eq_append, follows_append, follows_cons] at h
  obtain ⟨-, hcall, -⟩ := h
  rw [List.append_nil] at hcall
  rw [List.concat_eq_append, accepted_append, accepted_singleton]
  rcases call with ⟨offered, taken⟩ | done | ⟨limit, given⟩
  · obtain ⟨-, hoffered, -⟩ := hcall
    rw [← hoffered, List.prefix_append_right_inj]
    exact passed_write_isPrefix offered taken
  · rw [hcall.1]
    simp [passed]
  · rw [hcall.1]
    simp [passed]

/-- Nothing is left to write once the whole version has been taken at once. -/
theorem not_isWrite_of_follows {rest : List StreamCall}
    (h : Follows (MayFollow own) (.write own.toWire (.ok own.toWire.length) :: rest))
    (hcall : call ∈ rest) : call.isWrite = false := by
  obtain ⟨before, after, rfl⟩ := List.append_of_mem hcall
  have hfollow := h (.write own.toWire (.ok own.toWire.length) :: before) call after rfl
  rcases call with ⟨offered, taken⟩ | done | ⟨limit, given⟩
  · obtain ⟨hne, hoffered, -⟩ := hfollow
    have hlength := congrArg List.length hoffered
    simp only [accepted, List.flatMap_cons, passed, List.take_length, List.length_append] at hlength
    have := List.length_pos_iff.2 hne
    omega
  · rfl
  · rfl

/-- Where every write takes the whole offer, one write is enough. -/
theorem filter_isWrite (h : Follows (MayFollow own) calls) (hne : calls ≠ [])
    (hwhole : ∀ offered taken, .write offered taken ∈ calls → taken = .ok offered.length) :
    calls.filter isWrite = [.write own.toWire (.ok 12)] := by
  rcases calls with _ | ⟨⟨offered, taken⟩ | done | ⟨limit, given⟩, rest⟩
  · exact absurd rfl hne
  · obtain rfl := hwhole offered taken List.mem_cons_self
    obtain rfl : offered = own.toWire := (h [] _ rest rfl).2.1
    have hnone : ∀ call ∈ rest, call.isWrite = false := fun _ => not_isWrite_of_follows h
    rw [List.filter_cons_of_pos rfl, List.filter_eq_nil_iff.2 (by simpa using hnone)]
    rfl
  · exact absurd (h [] _ rest rfl).1.symm (Version.toWire_ne_nil own)
  · exact absurd (h [] _ rest rfl).1.symm (Version.toWire_ne_nil own)

end Speaking

section Hearing

/-- Takes in everything up to the end of the stream. An interruption is passed over. -/
def drain : List Signal → Except AgentError Unit × List Signal
  | [] => (.ok (), [])
  | .byte _ :: rest => drain rest
  | .ended :: rest => (.ok (), rest)
  | .failure cause :: rest =>
    if cause.kind = .interrupted then drain rest else (.error (.io cause), rest)

/-- What serving comes to after a version has been received, or not. -/
def judge (own : Version) :
    Except ProtocolError Version × List Signal → Except AgentError Unit × List Signal
  | (.ok remote, rest) =>
    match own.check remote with
    | .compatible => drain rest
    | .incompatible remote => (.error (.versionMismatch remote own), rest)
  | (.error cause, rest) => (.error (.protocol cause), rest)

/-- What an agent that has spoken comes to by what it is given, and what is left. -/
def Serving.onSignals : Serving → List Signal → Except AgentError Unit × List Signal
  | .sending own _, signals => judge own (Receiving.start.onSignals signals)
  | .receiving own state, signals => judge own (state.onSignals signals)
  | .draining, signals => drain signals
  | .done result, signals => (result, signals)

variable {signals rest : List Signal}

theorem onSignals_afterReceiving (state : Receiving) :
    (Serving.afterReceiving own state).onSignals signals = judge own (state.onSignals signals) := by
  rcases state with received | cause | remote
  · rfl
  · simp only [Serving.afterReceiving, onSignals_done, judge, Serving.onSignals]
  · simp only [Serving.afterReceiving, onSignals_done, judge]
    cases own.check remote <;> rfl

theorem drain_bytes (bytes : List UInt8) : drain (bytes.map .byte ++ rest) = drain rest := by
  induction bytes with
  | nil => rfl
  | cons b bytes ih => exact ih

theorem onSignals_afterDraining {limit : Nat} {outcome : Except IoError (List UInt8)}
    (hg : Gives limit signals outcome rest) :
    (Serving.afterDraining outcome).onSignals rest = drain signals := by
  cases hg with
  | @bytes bytes _ hb hle =>
    rw [drain_bytes]
    cases bytes with
    | nil => exact absurd rfl hb
    | cons b bytes => rfl
  | ended | exhausted => rfl
  | @failed cause rest =>
    simp only [Serving.afterDraining, drain]
    split <;> rfl

theorem judge_compatible {remote : Version} (h : remote.isCompatibleWith own = true) :
    judge own (.ok remote, rest) = drain rest := by
  rw [judge, Version.check, if_pos h]

theorem judge_incompatible {remote : Version} (h : remote.isCompatibleWith own = false) :
    judge own (.ok remote, rest) = (.error (.versionMismatch remote own), rest) := by
  rw [judge, Version.check, h]
  rfl

/-- Signals that are taken in up to an end, and what is left after it. -/
inductive Ends : List Signal → List Signal → Prop where

  | ended {rest : List Signal} : Ends (.ended :: rest) rest

  /-- A stream that has nothing more to give has ended for good. -/
  | exhausted : Ends [] []

  | byte {value : UInt8} {signals rest : List Signal} : Ends signals rest →
      Ends (.byte value :: signals) rest

  | interrupted {cause : IoError} {signals rest : List Signal} : cause.kind = .interrupted →
      Ends signals rest → Ends (.failure cause :: signals) rest

theorem drain_eq_ok_iff : drain signals = (.ok (), rest) ↔ Ends signals rest := by
  constructor
  · intro h
    induction signals with
    | nil =>
      cases h
      exact .exhausted
    | cons signal signals ih =>
      cases signal with
      | byte value => exact .byte (ih h)
      | ended =>
        cases h
        exact .ended
      | failure cause =>
        rw [drain] at h
        split at h
        next hkind => exact .interrupted hkind (ih h)
        · cases h
  · intro h
    induction h with
    | ended | exhausted => rfl
    | byte _ ih => exact ih
    | interrupted hkind _ ih => rw [drain, if_pos hkind, ih]

end Hearing

section Serving

variable {m : Serving} {signals left : List Signal} {calls : List StreamCall}

/-- An agent that has spoken only reads. -/
inductive Listens (own : Version) : Serving → Prop where

  | reading {received : List UInt8} : received.length < Version.wireSize →
      Listens own (.receiving own (.reading received))

  | draining : Listens own .draining

  | done {result : Except AgentError Unit} : Listens own (.done result)

theorem listens_afterReceiving {state : Receiving} (h : state.IsShort) :
    Listens own (.afterReceiving own state) := by
  rcases state with received | cause | remote
  · exact .reading (h received rfl)
  · exact .done
  · simp only [Serving.afterReceiving]
    cases own.check remote with
    | compatible => exact .draining
    | incompatible remote => exact .done

theorem listens_afterDraining (given : Except IoError (List UInt8)) :
    Listens own (.afterDraining given) := by
  unfold Serving.afterDraining
  split
  · exact .done
  · exact .draining
  · split
    · exact .draining
    · exact .done

/-- Where an agent stands after these calls, when its stream had these signals to give at first and
has `left` now. -/
inductive Converses (own : Version) (signals : List Signal) :
    Serving → List StreamCall → List Signal → Prop where

  | writing {unwritten : List UInt8} {calls : List StreamCall} : unwritten ≠ [] →
      accepted calls ++ unwritten = own.toWire → (∀ c ∈ calls, GoesOn c) →
      Converses own signals (.sending own (.writing unwritten)) calls signals

  | flushing {calls : List StreamCall} :
      accepted calls = own.toWire → (∀ c ∈ calls, GoesOn c) →
      Converses own signals (.sending own .flushing) calls signals

  | failed {calls : List StreamCall} {call : StreamCall} {cause : IoError} :
      (∀ c ∈ calls, GoesOn c) → Fails call cause →
      Converses own signals (.done (.error (.protocol (.io cause)))) (calls ++ [call]) signals

  | listening {m : Serving} {writes reads : List StreamCall} {left : List Signal} :
      Listens own m → accepted writes = own.toWire → (∀ c ∈ writes, GoesOn c) →
      (∀ c ∈ reads, c.isWrite = false) →
      m.onSignals left = judge own (Receiving.start.onSignals signals) →
      Converses own signals m (writes ++ .flush (.ok ()) :: reads) left

theorem accepted_of_not_isWrite (h : ∀ c ∈ calls, c.isWrite = false) : accepted calls = [] := by
  refine List.flatMap_eq_nil_iff.2 fun c hc => ?_
  rcases c with ⟨offered, taken⟩ | done | ⟨limit, given⟩
  · exact nomatch h _ hc
  · rfl
  · rfl

theorem spoken_of_writes {writes reads : List StreamCall} (hw : accepted writes = own.toWire)
    (hr : ∀ c ∈ reads, c.isWrite = false) : Spoken own (writes ++ .flush (.ok ()) :: reads) := by
  refine ⟨?_, by simp⟩
  rw [← List.singleton_append, accepted_append, accepted_append, accepted_of_not_isWrite hr, hw]
  simp [passed]

section Steps

variable (h : Converses own signals m calls left)
include h

theorem Converses.wrote {bytes : List UInt8} {next : Except IoError Nat → Serving}
    (ha : action m = .write bytes next) (taken : Except IoError Nat) :
    MayFollow own calls (.write bytes taken) ∧
      Converses own signals (next taken) (calls ++ [.write bytes taken]) left := by
  cases h with
  | flushing | failed => cases ha
  | listening hm => cases hm <;> cases ha
  | writing hne hrest hwrites =>
    cases ha
    refine ⟨⟨hne, hrest, hwrites⟩, ?_⟩
    have hmore : ∀ call, GoesOn call → ∀ c ∈ calls ++ [call], GoesOn c := fun _ hcall =>
      List.forall_mem_append.2 ⟨hwrites, List.forall_mem_singleton.2 hcall⟩
    dsimp only
    rcases taken with cause | count
    · by_cases hkind : cause.kind = .interrupted
      · rw [Sending.afterWrite, Writing.afterWrite, if_pos hkind]
        exact .writing hne (by simpa [passed] using hrest) (hmore (.write _ _) hkind)
      · rw [Sending.afterWrite, Writing.afterWrite, if_neg hkind]
        exact .failed hwrites (.write hkind)
    · rcases Nat.eq_zero_or_pos count with rfl | hpos
      · exact .failed hwrites .nothing
      rcases Sending.afterWrite_ok hpos with ⟨hleft, hw⟩ | ⟨hall, hw⟩
      · rw [hw]
        refine .writing hleft ?_ (hmore (.write _ _) hpos)
        rw [accepted_append, accepted_singleton, passed, List.append_assoc, List.take_append_drop,
          hrest]
      · rw [hw]
        refine .flushing ?_ (hmore (.write _ _) hpos)
        rw [accepted_append, accepted_singleton, passed, hall, hrest]

theorem Converses.flushed {next : Except IoError Unit → Serving} (ha : action m = .flush next)
    (done : Except IoError Unit) :
    MayFollow own calls (.flush done) ∧
      Converses own signals (next done) (calls ++ [.flush done]) left := by
  cases h with
  | writing | failed => cases ha
  | listening hm => cases hm <;> cases ha
  | flushing hall hwrites =>
    cases ha
    refine ⟨⟨hall, hwrites⟩, ?_⟩
    rcases done with cause | _
    · exact .failed hwrites .flush
    · exact .listening (.reading (by decide)) hall hwrites nofun rfl

theorem Converses.took {limit : Nat} {next : Except IoError (List UInt8) → Serving}
    (ha : action m = .read limit next) :
    0 < limit ∧ Spoken own calls ∧ ∀ given left', Gives limit left given left' →
      Converses own signals (next given) (calls ++ [.read limit given]) left' := by
  cases h with
  | writing | flushing | failed => cases ha
  | @listening _ writes reads _ hm hall hwrites hreads heq =>
    have hmore : ∀ limit given, ∀ c ∈ reads ++ [.read limit given], c.isWrite = false :=
      fun _ _ => List.forall_mem_append.2 ⟨hreads, List.forall_mem_singleton.2 rfl⟩
    cases hm with
    | reading hshort =>
      cases ha
      refine ⟨Nat.sub_pos_of_lt hshort, spoken_of_writes hall hreads, fun given left' hg => ?_⟩
      rw [List.append_assoc, List.cons_append]
      refine .listening (listens_afterReceiving (isShort_afterRead _ _)) hall hwrites (hmore _ _) ?_
      rw [onSignals_afterReceiving, onSignals_afterRead hshort hg]
      exact heq
    | draining =>
      cases ha
      refine ⟨by decide, spoken_of_writes hall hreads, fun given left' hg => ?_⟩
      rw [List.append_assoc, List.cons_append]
      refine .listening (listens_afterDraining given) hall hwrites (hmore _ _) ?_
      rw [onSignals_afterDraining hg]
      exact heq
    | done => cases ha

end Steps

/-- What a run of an agent leaves: a record in which every call may follow those before it, and an
agent that has finished. -/
theorem converses_serve (own : Version) (s : Script) :
    Follows (MayFollow own) (serve own (Recording.mk s [])).2.calls ∧
      Converses own s.signals (.done (serve own (Recording.mk s [])).1)
        (serve own (Recording.mk s [])).2.calls
        (serve own (Recording.mk s [])).2.stream.signals := by
  refine run_induction
    (I := fun m (u : Recording Script) =>
      Follows (MayFollow own) u.calls ∧ Converses own s.signals m u.calls u.stream.signals)
    (Q := fun result (u : Recording Script) => Follows (MayFollow own) u.calls ∧
      Converses own s.signals (.done result) u.calls u.stream.signals)
    ?_ ?_ ?_ ?_ _ _ ?_
  · rintro m u result ha ⟨hfollows, h⟩
    refine ⟨hfollows, ?_⟩
    generalize u.calls = calls, u.stream.signals = left at h
    cases h with
    | writing | flushing => cases ha
    | failed hwrites hfails =>
      cases ha
      exact .failed hwrites hfails
    | listening hm hall hwrites hreads heq =>
      cases hm with
      | reading | draining => cases ha
      | done =>
        cases ha
        exact .listening .done hall hwrites hreads heq
  · rintro m u bytes next ha ⟨hfollows, h⟩
    obtain ⟨hcall, hnext⟩ := h.wrote ha (u.stream.write bytes).1
    rw [← Script.signals_write bytes u.stream] at hnext
    exact ⟨hfollows.concat hcall, hnext⟩
  · rintro m u next ha ⟨hfollows, h⟩
    obtain ⟨hcall, hnext⟩ := h.flushed ha u.stream.flush.1
    rw [← Script.signals_flush u.stream] at hnext
    exact ⟨hfollows.concat hcall, hnext⟩
  · rintro m u limit next ha ⟨hfollows, h⟩
    obtain ⟨hpos, hspoken, hnext⟩ := h.took ha
    exact ⟨hfollows.concat hspoken, hnext _ _ (Script.gives_read hpos u.stream)⟩
  · exact ⟨follows_nil, .writing (Version.toWire_ne_nil own) rfl nofun⟩

end Serving

section Results

variable {signals left : List Signal} {calls : List StreamCall} {result : Except AgentError Unit}
  {bytes : List UInt8} {rest : List Signal}

theorem Fails.not_spoken {earlier : List StreamCall} {call : StreamCall} {cause : IoError}
    (h : Fails call cause) (hearlier : ∀ c ∈ earlier, GoesOn c) :
    ¬ Spoken own (earlier ++ [call]) := by
  rintro ⟨-, hflush⟩
  rcases List.mem_append.1 hflush with hmem | hmem
  · exact hearlier _ hmem
  · rw [List.mem_singleton] at hmem
    subst hmem
    cases h

variable (h : Converses own signals (.done result) calls left)
include h

/-- An agent that has finished has spoken and then come to what it was given, or it has failed to
speak and read nothing. -/
theorem Converses.finished :
    Spoken own calls ∧ (result, left) = judge own (Receiving.start.onSignals signals) ∨
      ¬ Spoken own calls ∧ left = signals ∧ ∃ call cause, calls.getLast? = some call ∧
        Fails call cause ∧ result = .error (.protocol (.io cause)) := by
  cases h with
  | failed hwrites hfails =>
    exact .inr ⟨hfails.not_spoken hwrites, rfl, _, _, by simp, hfails, rfl⟩
  | listening _ hall _ hreads heq => exact .inl ⟨spoken_of_writes hall hreads, heq⟩

theorem Converses.judged (hspoken : Spoken own calls) :
    (result, left) = judge own (Receiving.start.onSignals signals) := by
  rcases h.finished with ⟨-, heq⟩ | ⟨hnot, -⟩
  · exact heq
  · exact absurd hspoken hnot

theorem Converses.ne_nil : calls ≠ [] := by
  cases h <;> simp

theorem Converses.of_nothing_taken {offered : List UInt8} (hmem : .write offered (.ok 0) ∈ calls) :
    result = .error (.protocol (.io .writeZero)) := by
  cases h with
  | failed hwrites hfails =>
    rcases List.mem_append.1 hmem with hmem | hmem
    · exact absurd (hwrites _ hmem) (Nat.lt_irrefl 0)
    · rw [List.mem_singleton] at hmem
      subst hmem
      cases hfails
      rfl
  | listening _ _ hwrites hreads _ =>
    rcases List.mem_append.1 hmem with hmem | hmem
    · exact absurd (hwrites _ hmem) (Nat.lt_irrefl 0)
    · rcases List.mem_cons.1 hmem with heq | hmem
      · cases heq
      · exact nomatch hreads _ hmem

theorem Converses.truncated (hspoken : Spoken own calls) (hlt : bytes.length < 12)
    (hs : signals = bytes.map .byte ∨ signals = bytes.map .byte ++ .ended :: rest) :
    result = .error (.protocol (.truncated bytes.length 12)) := by
  have heq := h.judged hspoken
  rcases hs with rfl | rfl
  · rw [onSignals_of_receives (.exhausted hlt)] at heq
    exact congrArg Prod.fst heq
  · rw [onSignals_of_receives (.ended hlt)] at heq
    exact congrArg Prod.fst heq

theorem Converses.mismatched (hspoken : Spoken own calls) {remote : Version}
    (hs : signals = bytes.map .byte ++ rest) (hlength : bytes.length = 12)
    (hremote : Version.ofWire bytes = .ok remote) (hc : remote.isCompatibleWith own = false) :
    result = .error (.versionMismatch remote own) ∧ left = rest := by
  have heq := h.judged hspoken
  rw [hs, onSignals_of_receives (.version hlength hremote), judge_incompatible hc] at heq
  exact Prod.mk.inj heq

/-- The success of an agent: it has spoken, has heard a compatible version, and has come to the end
of the stream. -/
theorem Converses.ok_iff :
    result = .ok () ↔ Spoken own calls ∧ ∃ bytes remote more, signals = bytes.map .byte ++ more ∧
      bytes.length = 12 ∧ Version.ofWire bytes = .ok remote ∧
      remote.isCompatibleWith own = true ∧ Ends more left := by
  constructor
  · rintro rfl
    rcases h.finished with ⟨hspoken, heq⟩ | ⟨-, -, call, cause, -, -, herror⟩
    · refine ⟨hspoken, ?_⟩
      have hreceives := receives_onSignals (show [].length < Version.wireSize by decide) signals
      rw [← Receiving.start, List.map_nil, List.nil_append] at hreceives
      generalize Receiving.start.onSignals signals = received at heq hreceives
      obtain ⟨outcome, more⟩ := received
      cases hreceives with
      | ended | failed | exhausted => cases heq
      | @version bytes _ remote hlength hremote =>
        refine ⟨bytes, remote, more, rfl, hlength, hremote, ?_⟩
        cases hc : remote.isCompatibleWith own with
        | true =>
          rw [judge_compatible hc] at heq
          exact ⟨rfl, drain_eq_ok_iff.1 heq.symm⟩
        | false =>
          rw [judge_incompatible hc] at heq
          cases heq
    · cases herror
  · rintro ⟨hspoken, bytes, remote, more, rfl, hlength, hremote, hc, hends⟩
    have heq := h.judged hspoken
    rw [onSignals_of_receives (.version hlength hremote), judge_compatible hc,
      drain_eq_ok_iff.2 hends] at heq
    exact congrArg Prod.fst heq

end Results

/-- An agent reads nothing before its whole version has been accepted and flushed, and writes
nothing after that. What is accepted stays within the version, every write offers just what is left
of it, and an offer of which nothing is taken ends the serving. It succeeds exactly if the writes
and the flush do, the first twelve bytes it reads are a compatible version, and the rest of the
stream comes to its end. An incompatible version is refused with no byte read after it, and so is a
stream that ends before there are twelve. Interruptions count for nothing, except before the version
is there. -/
theorem serve_speaks_first (own : Version) (s : Script) :
    ∃ result calls left, serve own (Recording.mk s []) = (result, ⟨left, calls⟩) ∧
      serve own s = (result, left) ∧ Follows (MayFollow own) calls ∧
      (∀ before, before <+: calls → accepted before <+: own.toWire) ∧
      ((∀ offered taken, .write offered taken ∈ calls → taken = .ok offered.length) →
        calls.filter isWrite = [.write own.toWire (.ok 12)]) ∧
      (∀ offered, .write offered (.ok 0) ∈ calls →
        result = .error (.protocol (.io .writeZero))) ∧
      (result = .ok () ↔ Spoken own calls ∧
        ∃ bytes remote more, s.signals = bytes.map .byte ++ more ∧ bytes.length = 12 ∧
          Version.ofWire bytes = .ok remote ∧ remote.isCompatibleWith own = true ∧
          Ends more left.signals) ∧
      (Spoken own calls → ∀ bytes remote rest, s.signals = bytes.map .byte ++ rest →
        bytes.length = 12 → Version.ofWire bytes = .ok remote →
        remote.isCompatibleWith own = false →
        result = .error (.versionMismatch remote own) ∧ left.signals = rest) ∧
      (Spoken own calls → ∀ (bytes : List UInt8) (rest : List Signal), bytes.length < 12 →
        s.signals = bytes.map .byte ∨ s.signals = bytes.map .byte ++ .ended :: rest →
        result = .error (.protocol (.truncated bytes.length 12))) ∧
      (¬ Spoken own calls → left.signals = s.signals ∧ ∃ call cause, calls.getLast? = some call ∧
        Fails call cause ∧ result = .error (.protocol (.io cause))) := by
  obtain ⟨hfollows, h⟩ := converses_serve own s
  have hrun := Recording.run_stream (Serving.start own) (Recording.mk s [])
  rcases hserve : serve own (Recording.mk s []) with ⟨result, left, calls⟩
  rw [hserve] at hfollows h
  rw [← serve, ← serve, hserve] at hrun
  refine ⟨result, calls, left, rfl, hrun, hfollows,
    fun before hbefore => accepted_isPrefix (hfollows.of_isPrefix hbefore),
    filter_isWrite hfollows h.ne_nil, fun offered => h.of_nothing_taken, h.ok_iff,
    fun hspoken bytes remote rest => h.mismatched hspoken,
    fun hspoken bytes rest => h.truncated hspoken, fun hnot => ?_⟩
  rcases h.finished with ⟨hspoken, -⟩ | ⟨-, hleft⟩
  · exact absurd hspoken hnot
  · exact hleft

/-- A client of the same version whose stream is interrupted after the version. -/
def interruptedClient : Script where
  reader := [.data Version.current.toWire, .failure (.custom .interrupted "sig"), .data [0xaa]]
  writes := []
  flushFailure := none
  history := []

/-- A failure to read past the version need not end the serving: after an interruption it goes on,
although the stream does not come to its end from the version without a failure. -/
theorem serve_interruptedClient :
    (serve Version.current interruptedClient).1 = .ok () ∧
      ¬ ∃ (bytes passed : List UInt8) (rest : List Signal), bytes.length = 12 ∧
        interruptedClient.signals = bytes.map .byte ++ (passed.map .byte ++ rest) ∧
        (rest = [] ∨ rest.head? = some .ended) := by
  constructor
  · rw [serve, run_write rfl, run_flush rfl, run_read rfl, run_read rfl, run_read rfl, run_read rfl,
      run_finish rfl]
  · rintro ⟨bytes, passed, rest, hlength, hsignals, hend⟩
    have hafter := congrArg (List.drop 12) hsignals
    rw [List.drop_left' (by simpa using hlength)] at hafter
    have hfailure : interruptedClient.signals.drop 12 =
        [.failure (.custom .interrupted "sig"), .byte 0xaa] := by decide
    rw [hfailure] at hafter
    rcases passed with _ | ⟨b, passed⟩
    · rw [List.map_nil, List.nil_append] at hafter
      rw [← hafter] at hend
      rcases hend with hnil | hhead
      · cases hnil
      · cases hhead
    · cases hafter

end RemoteAgent.Agent
