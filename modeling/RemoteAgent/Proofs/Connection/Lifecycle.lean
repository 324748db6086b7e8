import RemoteAgent.Proofs.Connection.Bytes
import RemoteAgent.Rehearsal.Reply

/-! # The life of a connection

A connection is used by one caller at a time, but the kill delay can be set by others too, also
while the connection is being closed. Everything that happens to it is an event with its outcome,
and which outcomes an event can have is told by the events before it.
-/

namespace RemoteAgent.Connection

/-- Something that happens to a connection, with what comes of it. -/
inductive Event where
  | offered (bytes : List UInt8) (result : Except IoError Nat)
  | flushed (result : Except IoError Unit)
  /-- Ending the input cannot fail. -/
  | inputEnded
  | read (limit : Nat) (result : Except IoError (List UInt8))
  | reported (errorOutput : String)
  | delaySet (delay : Duration)
  /-- From here on the process is waited for. -/
  | closing
  | closed (result : Except ConnectionError ExitStatus)

namespace Event

def endsInput : Event → Bool
  | inputEnded | closing => true
  | _ => false

def isOfClosing : Event → Bool
  | closing | closed _ => true
  | _ => false

/-- The bytes that the process is given. -/
def delivered : Event → List UInt8
  | offered bytes (.ok count) => bytes.take count
  | _ => []

/-- The bytes that the caller gets. -/
def received : Event → List UInt8
  | read _ (.ok bytes) => bytes
  | _ => []

/-- The kill delay after an event. -/
def delayAfter (delay : Duration) : Event → Duration
  | delaySet delay => delay
  | _ => delay

end Event

/-- A connection, and the delay that the process is given while the connection is being closed. -/
structure Session where
  connection : Connection
  waiting : Option Duration

/-- The session that begins when a process has been started. -/
def Session.start (process : Process) (delay : Duration) : Session :=
  ⟨new process delay, none⟩

inductive Step : Session → Event → Session → Prop where

  | offer {c : Connection} (bytes : List UInt8) :
      Step ⟨c, none⟩ (.offered bytes (c.offer bytes).1) ⟨(c.offer bytes).2, none⟩

  | flush {c : Connection} : Step ⟨c, none⟩ (.flushed c.flush.1) ⟨c.flush.2, none⟩

  | shutdown {c : Connection} : Step ⟨c, none⟩ .inputEnded ⟨c.shutdown, none⟩

  | read {c : Connection} (limit : Nat) :
      Step ⟨c, none⟩ (.read limit (c.read limit).1) ⟨(c.read limit).2, none⟩

  | report {c : Connection} : Step ⟨c, none⟩ (.reported c.errorOutput) ⟨c, none⟩

  /-- Possible at any time, through any handle. -/
  | setKillDelay {c : Connection} {waiting : Option Duration} (delay : Duration) :
      Step ⟨c, waiting⟩ (.delaySet delay) ⟨c.setKillDelay delay, waiting⟩

  | refuse {c : Connection} : c.status.isSome →
      Step ⟨c, none⟩ (.closed (.error .notRunning)) ⟨c, none⟩

  | beginClose {c : Connection} : c.status = none →
      Step ⟨c, none⟩ .closing ⟨c.shutdown, some c.killDelay⟩

  | endClose {c : Connection} {delay : Duration} :
      Step ⟨c, some delay⟩ (.closed (.ok (c.waitFor delay).1)) ⟨(c.waitFor delay).2, none⟩

inductive Run : Session → List Event → Session → Prop where

  | nil {s : Session} : Run s [] s

  | cons {s s' s'' : Session} {e : Event} {events : List Event} : Step s e s' →
      Run s' events s'' → Run s (e :: events) s''

theorem run_append_iff {s s' : Session} {before after : List Event} :
    Run s (before ++ after) s' ↔ ∃ m, Run s before m ∧ Run m after s' := by
  induction before generalizing s with
  | nil =>
    refine ⟨fun h => ⟨s, .nil, h⟩, ?_⟩
    rintro ⟨m, hnil, h⟩
    cases hnil
    exact h
  | cons e before ih =>
    constructor
    · intro h
      cases h with
      | cons hstep hrest =>
        obtain ⟨m, hbefore, hafter⟩ := ih.1 hrest
        exact ⟨m, .cons hstep hbefore, hafter⟩
    · rintro ⟨m, hbefore, hafter⟩
      cases hbefore with
      | cons hstep hrest => exact .cons hstep (ih.2 ⟨m, hrest, hafter⟩)

theorem Run.snoc {s m s' : Session} {events : List Event} {e : Event} (h : Run s events m)
    (hstep : Step m e s') : Run s (events ++ [e]) s' :=
  run_append_iff.2 ⟨m, h, .cons hstep .nil⟩

section Closing

variable {c : Connection} {during : List Duration}

theorem run_setKillDelay (waiting : Option Duration) :
    Run ⟨c, waiting⟩ (during.map .delaySet) ⟨during.foldl setKillDelay c, waiting⟩ := by
  induction during generalizing c with
  | nil => exact .nil
  | cons delay during ih => exact .cons (.setKillDelay delay) ih

theorem exists_setKillDelay (c : Connection) (during : List Duration) :
    ∃ delay, during.foldl setKillDelay c = c.setKillDelay delay := by
  induction during generalizing c with
  | nil => exact ⟨c.killDelay, rfl⟩
  | cons delay during ih =>
    obtain ⟨last, hlast⟩ := ih (c.setKillDelay delay)
    exact ⟨last, hlast⟩

theorem waitFor_setKillDelay (c : Connection) (delay set : Duration) :
    (c.setKillDelay set).waitFor delay =
      ((c.waitFor delay).1, (c.waitFor delay).2.setKillDelay set) := by
  have hending : (c.setKillDelay set).endingWithin delay = c.endingWithin delay := rfl
  rcases waitFor_cases delay c with ⟨e, he, hw⟩ | ⟨hnone, hw⟩
  · rw [hw, waitFor, hending, he]
    rfl
  · rw [hw, waitFor, hending, hnone]
    rfl

/-- Closing runs to its end. What is set in the meantime is kept, and is without influence. -/
theorem run_close (h : c.status = none) (during : List Duration) :
    ∃ delay, Run ⟨c, none⟩ (.closing :: during.map .delaySet ++ [.closed c.close.1])
      ⟨c.close.2.setKillDelay delay, none⟩ := by
  obtain ⟨delay, hdelay⟩ := exists_setKillDelay c.shutdown during
  refine ⟨delay, run_append_iff.2 ⟨_, .cons (.beginClose h) (run_setKillDelay _), ?_⟩⟩
  have hclose : c.close =
      (.ok (c.shutdown.waitFor c.killDelay).1, (c.shutdown.waitFor c.killDelay).2) := by
    rw [close, if_neg (by simp [h])]
  have hend := @Step.endClose (c.shutdown.setKillDelay delay) c.killDelay
  rw [waitFor_setKillDelay] at hend
  rw [hclose, hdelay]
  exact .cons hend .nil

end Closing

section Ending

variable {c : Connection} {delay : Duration}

/-- The status of a process whose input has ended and that is waited for: it ends by itself in time,
unless it waits for its output to be read, or else it is killed. -/
inductive EndsIn (c : Connection) (delay : Duration) : ExitStatus → Prop where

  | byItself {e : Ending} : c.isBlocked = false → c.process.ending c.given true = some e →
      e.after.nanoseconds ≤ delay.nanoseconds → EndsIn c delay e.status

  | killed : (c.isBlocked = false → ∀ e, c.process.ending c.given true = some e →
      delay.nanoseconds < e.after.nanoseconds) → EndsIn c delay .killed

theorem endsIn_waitFor (c : Connection) (delay : Duration) :
    EndsIn c delay (c.waitFor delay).1 := by
  rcases waitFor_cases delay c with ⟨e, he, hw⟩ | ⟨hnone, hw⟩ <;> rw [hw]
  · obtain ⟨hending, hdelay⟩ := of_endingWithin he
    refine .byItself ?_ hending hdelay
    unfold endingWithin at he
    split at he
    · cases he
    next hblocked => simpa using hblocked
  · refine .killed fun hblocked e he => ?_
    rw [endingWithin, hblocked, if_neg (by simp), he] at hnone
    simpa using hnone

theorem handle_waitFor (c : Connection) (delay : Duration) :
    (c.waitFor delay).2.handle = { c.handle with
      status := some (c.waitFor delay).1
      cutoff := (c.waitFor delay).2.cutoff } := by
  rcases waitFor_cases delay c with ⟨e, -, hw⟩ | ⟨-, hw⟩ <;> rw [hw] <;> rfl

theorem given_waitFor (c : Connection) (delay : Duration) :
    (c.waitFor delay).2.given = c.given := by
  rcases waitFor_cases delay c with ⟨e, -, hw⟩ | ⟨-, hw⟩ <;> rw [hw]

theorem waitFor_killed (hcutoff : c.cutoff = none) (h : (c.waitFor delay).2.wasKilled = true) :
    (c.waitFor delay).1 = .killed := by
  rcases waitFor_cases delay c with ⟨e, -, hw⟩ | ⟨-, hw⟩ <;> rw [hw] at h ⊢
  rw [wasKilled, hcutoff] at h
  cases h

end Ending

section Keeping

/-- Where the closing of a connection has got to. While it goes on, the session is told by the one
in which it began and by the delays that were set since. -/
inductive Phase (start : Session) (events : List Event) : Session → Prop where

  | fresh {c : Connection} : (∀ e ∈ events, e.isOfClosing = false) → c.status = none →
      c.cutoff = none → Phase start events ⟨c, none⟩

  | closing {c : Connection} {began : List Event} {during : List Duration} {delay : Duration} :
      events = began ++ .closing :: during.map .delaySet → (∀ e ∈ began, e.isOfClosing = false) →
      Run start began ⟨c, none⟩ → c.status = none → c.cutoff = none →
      Phase start events ⟨c.shutdown.setKillDelay delay, some c.killDelay⟩

  | closed {c : Connection} {status : ExitStatus} : (∀ r, .closed (.ok r) ∈ events ↔ r = status) →
      .closing ∈ events → c.status = some status → (c.wasKilled = true → status = .killed) →
      Phase start events ⟨c, none⟩

/-- What a connection is after some events. -/
structure Kept (process : Process) (delay : Duration) (events : List Event) (s : Session) :
    Prop where
  sameProcess : s.connection.process = process
  received : s.connection.HasRead (events.flatMap Event.received)
  given : s.connection.given = events.flatMap Event.delivered
  inputOpen : s.connection.inputOpen = !events.any Event.endsInput
  killDelay : s.connection.killDelay = events.foldl Event.delayAfter delay
  phase : Phase (.start process delay) events s

variable {process : Process} {delay : Duration} {start : Session} {events : List Event} {e : Event}
  {c d : Connection} {waiting waiting' : Option Duration}

theorem closed_notMem (h : ∀ e ∈ events, e.isOfClosing = false)
    (result : Except ConnectionError ExitStatus) : .closed result ∉ events := by
  intro hmem
  cases h _ hmem

theorem kept_start (process : Process) (delay : Duration) :
    Kept process delay [] (.start process delay) :=
  ⟨rfl, hasRead_new process delay, rfl, rfl, rfl, .fresh nofun rfl rfl⟩

theorem Phase.ordinary (h : Phase start events ⟨c, none⟩) (he : e.isOfClosing = false)
    (hstatus : d.status = c.status) (hcutoff : d.cutoff = c.cutoff) :
    Phase start (events ++ [e]) ⟨d, none⟩ := by
  cases h with
  | fresh hevents hs hc =>
    refine .fresh ?_ (hstatus.trans hs) (hcutoff.trans hc)
    simpa only [List.forall_mem_append, List.forall_mem_singleton] using ⟨hevents, he⟩
  | closed hclosed hclosing hs hkilled =>
    refine .closed (fun r => ?_) (List.mem_append_left _ hclosing) (hstatus.trans hs) fun hk => ?_
    · rw [List.mem_append, hclosed, List.mem_singleton, or_iff_left]
      rintro rfl
      cases he
    · rw [wasKilled, hcutoff] at hk
      exact hkilled hk

theorem Phase.setKillDelay (h : Phase start events ⟨c, waiting⟩) (set : Duration) :
    Phase start (events ++ [.delaySet set]) ⟨c.setKillDelay set, waiting⟩ := by
  cases waiting with
  | none => exact h.ordinary rfl rfl rfl
  | some wait =>
    cases h with
    | @closing c' _ during _ hevents hbegan hrun hs hc =>
      refine @Phase.closing _ _ c' _ (during ++ [set]) set ?_ hbegan hrun hs hc
      rw [hevents, List.map_append, List.map_singleton, List.append_assoc, List.cons_append]

theorem Phase.refuse (h : Phase start events ⟨c, none⟩) (hsome : c.status.isSome) :
    Phase start (events ++ [.closed (.error .notRunning)]) ⟨c, none⟩ := by
  cases h with
  | fresh _ hs _ =>
    rw [hs] at hsome
    cases hsome
  | closed hclosed hclosing hs hkilled =>
    refine .closed (fun r => ?_) (List.mem_append_left _ hclosing) hs hkilled
    rw [List.mem_append, hclosed, List.mem_singleton, or_iff_left]
    exact nofun

theorem Kept.of_step (h : Kept process delay events ⟨c, waiting⟩) (hprocess : d.process = c.process)
    (hreceived : d.HasRead (events.flatMap Event.received ++ e.received))
    (hgiven : d.given = c.given ++ e.delivered)
    (hopen : d.inputOpen = (c.inputOpen && !e.endsInput))
    (hdelay : d.killDelay = e.delayAfter c.killDelay)
    (hphase : Phase (.start process delay) (events ++ [e]) ⟨d, waiting'⟩) :
    Kept process delay (events ++ [e]) ⟨d, waiting'⟩ where
  sameProcess := hprocess.trans h.sameProcess
  received := by simpa using hreceived
  given := hgiven.trans (by simp [show c.given = _ from h.given])
  inputOpen := hopen.trans (by simp [show c.inputOpen = _ from h.inputOpen])
  killDelay := hdelay.trans (by simp [show c.killDelay = _ from h.killDelay])
  phase := hphase

/-- A step that passes no bytes in either direction. -/
theorem Kept.of_quiet_step (h : Kept process delay events ⟨c, waiting⟩)
    (hprocess : d.process = c.process) (hread : d.HasRead (events.flatMap Event.received))
    (hgiven : d.given = c.given) (hreceived : e.received = []) (hdelivered : e.delivered = [])
    (hopen : d.inputOpen = (c.inputOpen && !e.endsInput))
    (hdelay : d.killDelay = e.delayAfter c.killDelay)
    (hphase : Phase (.start process delay) (events ++ [e]) ⟨d, waiting'⟩) :
    Kept process delay (events ++ [e]) ⟨d, waiting'⟩ := by
  refine h.of_step hprocess ?_ ?_ hopen hdelay hphase
  · rwa [hreceived, List.append_nil]
  · rwa [hdelivered, List.append_nil]

theorem Kept.offer (h : Kept process delay events ⟨c, none⟩) (bytes : List UInt8) :
    Kept process delay (events ++ [.offered bytes (c.offer bytes).1])
      ⟨(c.offer bytes).2, none⟩ := by
  have hhandle := handle_offer bytes c
  simp only [handle, Handle.mk.injEq] at hhandle
  obtain ⟨hprocess, hstatus, hopen, hcutoff, hdelay⟩ := hhandle
  refine h.of_step hprocess ?_ ?_ (by simpa [Event.endsInput] using hopen) hdelay
    (h.phase.ordinary rfl hstatus hcutoff)
  · simpa only [Event.received, List.append_nil] using h.received.offer bytes
  · rcases offer_cases bytes c with ⟨cause, ho⟩ | ⟨rfl, ho⟩ | ⟨-, ho⟩ <;>
      simp [ho, Event.delivered, give]

theorem Kept.read (h : Kept process delay events ⟨c, none⟩) (limit : Nat) :
    Kept process delay (events ++ [.read limit (c.read limit).1]) ⟨(c.read limit).2, none⟩ := by
  have hhandle := handle_read limit c
  simp only [handle, Handle.mk.injEq] at hhandle
  obtain ⟨hprocess, hstatus, hopen, hcutoff, hdelay⟩ := hhandle
  refine h.of_step hprocess ?_ ?_ (by simpa [Event.endsInput] using hopen) hdelay
    (h.phase.ordinary rfl hstatus hcutoff)
  · obtain ⟨more, hmore⟩ := exists_read limit c
    rw [hmore]
    exact h.received.read hmore
  · rw [given_read]
    exact (List.append_nil _).symm

/-- The connection is closed by nobody else. -/
theorem Kept.beginClose (h : Kept process delay events ⟨c, none⟩)
    (hrun : Run (.start process delay) events ⟨c, none⟩) (hstatus : c.status = none) :
    Kept process delay (events ++ [.closing]) ⟨c.shutdown, some c.killDelay⟩ := by
  refine h.of_quiet_step rfl h.received.shutdown rfl rfl rfl (Bool.and_false _).symm rfl ?_
  cases h.phase with
  | fresh hevents _ hcutoff =>
    exact @Phase.closing _ _ c events [] c.killDelay rfl hevents hrun hstatus hcutoff
  | closed _ _ hs _ => exact nomatch hs.symm.trans hstatus

theorem Kept.endClose {wait : Duration} (h : Kept process delay events ⟨c, some wait⟩) :
    Kept process delay (events ++ [.closed (.ok (c.waitFor wait).1)])
      ⟨(c.waitFor wait).2, none⟩ := by
  have hhandle := handle_waitFor c wait
  simp only [handle, Handle.mk.injEq] at hhandle
  obtain ⟨hprocess, hstatus, hopen, -, hdelay⟩ := hhandle
  refine h.of_quiet_step hprocess (h.received.waitFor wait) (given_waitFor c wait) rfl rfl
    (hopen.trans (Bool.and_true _).symm) hdelay ?_
  cases h.phase with
  | closing hevents hbegan _ _ hcutoff =>
    refine .closed (fun r => ?_) ?_ hstatus (waitFor_killed hcutoff)
    · simp [hevents, closed_notMem hbegan]
    · simp [hevents]

theorem Kept.step {s s' : Session} (h : Kept process delay events s)
    (hrun : Run (.start process delay) events s) (hstep : Step s e s') :
    Kept process delay (events ++ [e]) s' := by
  cases hstep with
  | offer bytes => exact h.offer bytes
  | flush =>
    exact h.of_quiet_step rfl h.received rfl rfl rfl (Bool.and_true _).symm rfl
      (h.phase.ordinary rfl rfl rfl)
  | shutdown =>
    exact h.of_quiet_step rfl h.received.shutdown rfl rfl rfl (Bool.and_false _).symm rfl
      (h.phase.ordinary rfl rfl rfl)
  | read limit => exact h.read limit
  | report =>
    exact h.of_quiet_step rfl h.received rfl rfl rfl (Bool.and_true _).symm rfl
      (h.phase.ordinary rfl rfl rfl)
  | setKillDelay set =>
    exact h.of_quiet_step rfl (h.received.of_output rfl rfl h.received.isPrefix) rfl rfl rfl
      (Bool.and_true _).symm rfl (h.phase.setKillDelay set)
  | refuse hsome =>
    exact h.of_quiet_step rfl h.received rfl rfl rfl (Bool.and_true _).symm rfl
      (h.phase.refuse hsome)
  | beginClose hstatus => exact h.beginClose hrun hstatus
  | endClose => exact h.endClose

theorem Kept.run {s s' : Session} {before : List Event} (h : Kept process delay before s)
    (hbefore : Run (.start process delay) before s) (hrun : Run s events s') :
    Kept process delay (before ++ events) s' := by
  -- The run so far goes along, since the phase of closing refers to it.
  induction hrun generalizing before with
  | nil => rwa [List.append_nil]
  | cons hstep _ ih =>
    rw [List.append_cons]
    exact ih (h.step hbefore hstep) (hbefore.snoc hstep)

end Keeping

section Lawfulness

/-- What can still be read. -/
def unread (c : Connection) : List UInt8 :=
  c.buffer ++ c.pending

/-- What can come of an event, given the events before it and the connection that it happens to. -/
def Answered (process : Process) (delay : Duration) (before : List Event) (c : Connection) :
    Event → Prop
  | .offered bytes result =>
    if before.any Event.endsInput then result = .error closedPipe
    else result = .ok (c.accepted bytes.length) ∨ result = .error (.system .brokenPipe)
  | .flushed result => result = .ok ()
  | .read limit result => ∃ bytes, result = .ok bytes ∧ bytes <+: c.unread ∧
      bytes.length ≤ limit ∧ (bytes = [] → 0 < limit → c.unread = [])
  | .closing => ∀ e ∈ before, e.isOfClosing = false
  -- The wait goes by the delay that was set when it began, whatever is set during it.
  | .closed (.ok status) => (∀ r, .closed r ∉ before) ∧ ∃ d began, ∃ during : List Duration,
      before = began ++ .closing :: during.map .delaySet ∧
      Run (.start process delay) began ⟨d, none⟩ ∧
      EndsIn d.shutdown (began.foldl Event.delayAfter delay) status
  | .closed (.error cause) => cause = .notRunning ∧ ∃ status, .closed (.ok status) ∈ before
  | .inputEnded | .reported _ | .delaySet _ => True

/-- What holds of a connection after any events. -/
structure Lawful (process : Process) (delay : Duration) (events : List Event) (s : Session) :
    Prop where
  answered : ∀ {before e after}, events = before ++ e :: after → ∃ m,
    Run (.start process delay) before m ∧ Run m (e :: after) s ∧
    Answered process delay before m.connection e
  inputOpen : s.connection.inputOpen = !events.any Event.endsInput
  status : ∀ status, s.connection.status = some status ↔ .closed (.ok status) ∈ events
  /-- A connection that is closed, or being closed, has a closed input. -/
  closedInput : s.connection.status.isSome ∨ s.waiting.isSome → s.connection.inputOpen = false
  given : s.connection.given = events.flatMap Event.delivered
  killDelay : s.connection.killDelay = events.foldl Event.delayAfter delay
  output : s.connection.output = events.flatMap Event.received ++ s.connection.unread
  rest : (ByteStream.readToEnd s.connection).1 = .ok s.connection.unread
  /-- Only a killed process has its output cut short. -/
  stdout : s.connection.output <+:
    process.output (events.flatMap Event.delivered) (events.any Event.endsInput)
  whole : .closed (.ok .killed) ∉ events → s.connection.output =
    process.output (events.flatMap Event.delivered) (events.any Event.endsInput)
  closable : s.waiting = none → s.connection.status = none → ∀ during : List Duration, ∃ c,
    Run s (.closing :: during.map .delaySet ++ [.closed s.connection.close.1]) ⟨c, none⟩
  notRunning : s.connection.status.isSome → s.connection.close = (.error .notRunning, s.connection)

variable {process : Process} {delay : Duration} {events : List Event} {e : Event} {s s' : Session}
  {c : Connection}

theorem Kept.offer_answered (h : Kept process delay events ⟨c, none⟩) (bytes : List UInt8) :
    Answered process delay events c (.offered bytes (c.offer bytes).1) := by
  have hopen : c.inputOpen = !events.any Event.endsInput := h.inputOpen
  unfold Answered Connection.offer
  dsimp only
  rw [hopen, Bool.not_not]
  split
  · rfl
  · split
    next hnil =>
      have hnone := accepted_le bytes.length c
      rw [List.isEmpty_iff.1 hnil, List.length_nil] at hnone ⊢
      exact .inl (by rw [Nat.le_zero.1 hnone])
    · split
      · exact .inr rfl
      · exact .inl rfl

theorem read_answered (c : Connection) (limit : Nat) :
    Answered process delay events c (.read limit (c.read limit).1) := by
  obtain ⟨bytes, hbytes⟩ := exists_read limit c
  refine ⟨bytes, hbytes, ?_, length_read_le hbytes, fun hnil hpos => ?_⟩
  · rw [unread, buffer_pending_read hbytes, List.append_assoc]
    exact List.prefix_append _ _
  · subst hnil
    exact buffer_append_pending_eq_nil hpos hbytes

theorem Kept.endClose_answered {wait : Duration} (h : Kept process delay events ⟨c, some wait⟩) :
    Answered process delay events c (.closed (.ok (c.waitFor wait).1)) := by
  cases h.phase with
  | @closing c began during set hevents hbegan hrun _ _ =>
    refine ⟨fun r hmem => ?_, c, began, during, hevents, hrun, ?_⟩
    · simp [hevents, closed_notMem hbegan] at hmem
    · have hdelay : c.killDelay = _ := ((kept_start process delay).run .nil hrun).killDelay
      rw [waitFor_setKillDelay, ← List.nil_append began, ← hdelay]
      exact endsIn_waitFor _ _

theorem Kept.answered (h : Kept process delay events s) (hstep : Step s e s') :
    Answered process delay events s.connection e := by
  cases hstep with
  | offer bytes => exact h.offer_answered bytes
  | flush => exact rfl
  | shutdown | report | setKillDelay => trivial
  | read limit => exact read_answered _ limit
  | refuse hsome =>
    refine ⟨rfl, ?_⟩
    cases h.phase with
    | fresh _ hnone _ =>
      rw [hnone] at hsome
      cases hsome
    | closed hclosed _ _ _ => exact ⟨_, (hclosed _).2 rfl⟩
  | beginClose hnone =>
    cases h.phase with
    | fresh hevents _ _ => exact hevents
    | closed _ _ hsome _ => exact nomatch hsome.symm.trans hnone
  | endClose => exact h.endClose_answered

theorem Kept.status_iff (h : Kept process delay events s) (status : ExitStatus) :
    s.connection.status = some status ↔ .closed (.ok status) ∈ events := by
  cases h.phase with
  | fresh hevents hs _ => simp [hs, closed_notMem hevents]
  | closing hevents hbegan _ hs _ =>
    simp [hevents, closed_notMem hbegan, shutdown, setKillDelay, hs]
  | closed hclosed _ hs _ => simp [hs, hclosed, eq_comm]

theorem Kept.closedInput (h : Kept process delay events s)
    (hclosed : s.connection.status.isSome ∨ s.waiting.isSome) : s.connection.inputOpen = false := by
  have hclosing : .closing ∈ events := by
    cases h.phase with
    | fresh _ hs _ => simp [hs] at hclosed
    | closing hevents _ _ _ _ => simp [hevents]
    | closed _ hclosing _ _ => exact hclosing
  rw [h.inputOpen, Bool.not_eq_false', List.any_eq_true]
  exact ⟨_, hclosing, rfl⟩

theorem Kept.wasKilled (h : Kept process delay events s) (hk : s.connection.wasKilled = true) :
    .closed (.ok .killed) ∈ events := by
  cases h.phase with
  | fresh _ _ hcutoff => simp [Connection.wasKilled, hcutoff] at hk
  | closing _ _ _ _ hcutoff => simp [Connection.wasKilled, shutdown, setKillDelay, hcutoff] at hk
  | closed hclosed _ _ hkilled => exact (hclosed _).2 (hkilled hk).symm

/-- Whatever happens to a connection, it is closed at most once, and its process is killed only if
it does not end in time. Nothing is written once the input has ended, and all output can be read
in order, before and after the connection is closed. -/
theorem session_lawful (h : Run (.start process delay) events s) :
    Lawful process delay events s := by
  have hkept : Kept process delay events s := (kept_start process delay).run .nil h
  have hended : (!s.connection.inputOpen) = events.any Event.endsInput := by
    rw [hkept.inputOpen, Bool.not_not]
  constructor
  case answered =>
    intro before e after hevents
    obtain ⟨m, hbefore, hafter⟩ := run_append_iff.1 (hevents ▸ h)
    refine ⟨m, hbefore, hafter, ?_⟩
    cases hafter with
    | cons hstep _ => exact ((kept_start process delay).run .nil hbefore).answered hstep
  case inputOpen => exact hkept.inputOpen
  case status => exact hkept.status_iff
  case closedInput => exact hkept.closedInput
  case given => exact hkept.given
  case killDelay => exact hkept.killDelay
  case output => exact hkept.received.output_eq
  case rest => exact readToEnd_eq _
  case stdout =>
    rw [← hkept.given, ← hended, ← hkept.sameProcess]
    exact output_isPrefix_process _
  case whole =>
    intro hnot
    rw [← hkept.given, ← hended, ← hkept.sameProcess]
    refine output_of_wasKilled_eq_false (Bool.eq_false_iff.2 fun hk => hnot (hkept.wasKilled hk))
  case closable =>
    intro hidle hnone during
    obtain ⟨c, waiting⟩ := s
    cases hidle
    obtain ⟨last, hrun⟩ := run_close hnone during
    exact ⟨_, hrun⟩
  case notRunning =>
    intro hsome
    rw [close, if_pos hsome]

/-- A process that copies its input to its output and ends with its input. -/
def copier : Process :=
  Rehearsal.Reply.process
    { output := [], errorOutput := [], mode := .echo, status := .exited 3 }

def copierEvents : List Event := [
  .offered [7] (.ok 1), .closing, .delaySet ⟨0⟩, .closed (.ok (.exited 3)),
  .offered [8] (.error closedPipe), .read 2 (.ok [7]), .closed (.error .notRunning)]

theorem exists_run_copier : ∃ s, Run (.start copier ⟨1⟩) copierEvents s :=
  ⟨_, .cons (.offer [7]) (.cons (.beginClose rfl) (.cons (.setKillDelay ⟨0⟩) (.cons .endClose
    (.cons (.offer [8]) (.cons (.read 2) (.cons (.refuse rfl) .nil))))))⟩

theorem session_lawful_copier : ∃ s, Run (.start copier ⟨1⟩) copierEvents s ∧
    Lawful copier ⟨1⟩ copierEvents s := by
  obtain ⟨s, hrun⟩ := exists_run_copier
  exact ⟨s, hrun, session_lawful hrun⟩

end Lawfulness

end RemoteAgent.Connection
