import Chatroom.Net.Connection

/-!
# `shutdown` while messages are being sent

`TcpConnection::send` and `shutdown` in their steps, the test of `m_state` and what follows it, so that the other
threads may come in between. The functors and `handleWrite` run in the thread of the loop, and a write takes any part
of what it is given. A message is cut off when `shutdownWrite` is called before all of it was written.
-/

namespace Chatroom.Net

open Lib

/-- Where a thread is in a call on the connection. -/
inductive Inside where
  | idle
  /-- in `send`, which found the connection connected -/
  | sending (message : Bytes)
  /-- in `shutdown`, which found the connection connected -/
  | shutting
  /-- in `shutdown`, past `setState` -/
  | disconnecting
  deriving DecidableEq

def Inside.message? : Inside → Option Bytes
  | sending message => some message
  | _ => none

/-- The functors that the loop is given. -/
inductive Queued (ι : Type*) where
  /-- from `send` on the thread -/
  | sendInLoop (thread : ι) (message : Bytes)
  | writeComplete
  | shutdownInLoop
  /-- a functor of another object -/
  | other

def Queued.message? {ι : Type*} : Queued ι → Option (Option ι × Bytes)
  | .sendInLoop thread message => some (some thread, message)
  | _ => none

structure Shutdown (ι : Type*) where
  loop : EventLoop ι (Queued ι)
  conn : Connection
  inside : Option ι → Inside

namespace Shutdown

variable {ι : Type*}

/-- A connection that is established. -/
def new (writeCompleteCallback : Bool) : Shutdown ι :=
  ⟨.new, ⟨.kConnected, .new, false, writeCompleteCallback, [], false⟩, fun _ => .idle⟩

inductive Action (ι : Type*) where
  /-- `send` tests the state -/
  | send (thread : Option ι) (message : Bytes)
  /-- `shutdown` tests the state -/
  | shutdown (thread : Option ι)
  | setState (thread : Option ι)
  /-- the end of `send` and of `shutdown`; `result` is what `::write` returns in the thread of the loop -/
  | runInLoop (thread : Option ι) (result : WriteResult)
  | queueOther (thread : Option ι)
  | quit (thread : Option ι)
  | wakeup (thread : Option ι)
  /-- the next functor is run -/
  | functor (result : WriteResult)
  /-- the other steps of the loop -/
  | loop (a : EventLoop.Advance)
  | handleWrite (result : WriteResult)

inductive Event (ι : Type*) where
  /-- `send` found the connection connected -/
  | accepted (thread : Option ι) (message : Bytes)
  /-- `sendInLoop` was run -/
  | sent (thread : Option ι) (message : Bytes)
  /-- `shutdownWrite` was called when this was written -/
  | shutdownWrite (wire : Bytes)
  deriving DecidableEq

/-- `shutdownInLoop` only touches the socket. -/
def shutdownInLoop (conn : Connection) : List (Event ι) := if conn.isWriting then [] else [.shutdownWrite conn.wire]

variable [DecidableEq ι] (s : Shutdown ι)

/-- The thread may call something. -/
def Free (thread : Option ι) : Prop := s.loop.CanCall thread ∧ s.inside thread = .idle

/-- The thread of the loop is in an event handler. -/
def Handling : Prop :=
  s.loop.callers none = .idle ∧ s.loop.phase.calls = true ∧ s.loop.phase.collects = true ∧ s.inside none = .idle

instance (thread : Option ι) : Decidable (s.Free thread) :=
  inferInstanceAs (Decidable (s.loop.CanCall thread ∧ s.inside thread = .idle))

instance : Decidable s.Handling :=
  inferInstanceAs (Decidable (s.loop.callers none = .idle ∧ s.loop.phase.calls = true ∧
    s.loop.phase.collects = true ∧ s.inside none = .idle))

def enter (thread : Option ι) (inside : Inside) : Shutdown ι :=
  { s with inside := Function.update s.inside thread inside }

def queue (thread : Option ι) (cb : Queued ι) : Shutdown ι := { s with loop := s.loop.queueInLoop thread cb }

/-- What was done to the connection, with the callback queued if it is complete. -/
def completing (conn : Connection × Bool) : Shutdown ι :=
  { s with conn := conn.1, loop := if conn.2 then s.loop.queueInLoop none .writeComplete else s.loop }

def sendInLoop (message : Bytes) (result : WriteResult) : Shutdown ι :=
  s.completing (s.conn.sendInLoop message result)

def setState (thread : Option ι) : Shutdown ι := { s with conn.state := .kDisconnecting }.enter thread .disconnecting

def runInLoop (thread : Option ι) (result : WriteResult) : Option (Shutdown ι) :=
  match s.inside thread, thread with
  | .sending message, none => some ((s.enter none .idle).sendInLoop message result)
  | .sending message, some i => some ((s.enter (some i) .idle).queue (some i) (.sendInLoop i message))
  | .disconnecting, none => some (s.enter none .idle)
  | .disconnecting, some i => some ((s.enter (some i) .idle).queue (some i) .shutdownInLoop)
  | _, _ => none

/-- A functor is called. -/
def call (result : WriteResult) : Queued ι → Shutdown ι
  | .sendInLoop _ message => s.sendInLoop message result
  | .writeComplete | .shutdownInLoop | .other => s

def step : Action ι → Option (Shutdown ι)
  | .send thread message =>
    if s.Free thread then
      some (if s.conn.state = .kConnected then s.enter thread (.sending message) else s)
    else none
  | .shutdown thread =>
    if s.Free thread then some (if s.conn.state = .kConnected then s.enter thread .shutting else s) else none
  | .setState thread => if s.inside thread = .shutting then some (s.setState thread) else none
  | .runInLoop thread result => s.runInLoop thread result
  | .queueOther thread => if s.Free thread then some (s.queue thread .other) else none
  | .quit thread =>
    if s.inside thread = .idle then (s.loop.step (.quit thread)).map fun loop => { s with loop } else none
  | .wakeup thread => (s.loop.step (.wakeup thread)).map fun loop => { s with loop }
  | .functor result =>
    if s.inside none = .idle then
      s.loop.phase.functors.head?.bind fun cb =>
        (s.loop.step (.loop .functor)).map fun loop => { s with loop }.call result cb
    else none
  | .loop a =>
    if s.inside none = .idle ∧ a ≠ .functor then (s.loop.step (.loop a)).map fun loop => { s with loop } else none
  | .handleWrite result => if s.Handling then some (s.completing (s.conn.handleWrite result)) else none

def machine : Machine (Shutdown ι) (Action ι) := ⟨step⟩

def events : Action ι → List (Event ι)
  | .send thread message => if s.conn.state = .kConnected then [.accepted thread message] else []
  | .runInLoop thread _ =>
    match s.inside thread, thread with
    | .sending message, none => [.sent none message]
    | .disconnecting, none => shutdownInLoop s.conn
    | _, _ => []
  | .functor _ =>
    match s.loop.phase.functors.head? with
    | some (.sendInLoop i message) => [.sent (some i) message]
    | some .shutdownInLoop => shutdownInLoop s.conn
    | _ => []
  | .handleWrite result =>
    -- the buffer was drained
    if s.conn.isWriting = true ∧ (s.conn.handleWrite result).1.isWriting = false ∧ s.conn.state = .kDisconnecting then
      shutdownInLoop (s.conn.handleWrite result).1
    else []
  | _ => []

/-! ## What is cut off -/

def Event.accepted? : Event ι → Option (Option ι × Bytes)
  | accepted thread message => some (thread, message)
  | _ => none

def Event.sent? : Event ι → Option (Option ι × Bytes)
  | sent thread message => some (thread, message)
  | _ => none

def accepts (log : List (Event ι)) : List (Option ι × Bytes) := log.filterMap Event.accepted?

def sends (log : List (Event ι)) : List (Option ι × Bytes) := log.filterMap Event.sent?

/-- Whenever `shutdownWrite` is called, exactly the accepted messages are written, whole. -/
def Drained (log : List (Event ι)) : Prop :=
  ∀ l₁ wire l₂, log = l₁ ++ .shutdownWrite wire :: l₂ →
    (accepts log).Perm (sends l₁) ∧ wire = ((sends l₁).map Prod.snd).flatten

/-- No message is among the functors. -/
def Sendless (functors : List (Queued ι)) : Prop := ∀ cb ∈ functors, cb.message? = none

instance (functors : List (Queued ι)) : Decidable (Sendless functors) :=
  inferInstanceAs (Decidable (∀ cb ∈ functors, cb.message? = none))

/-- Nothing is cut off by the `shutdown` whose thread sets the state now. -/
def Fine (thread : Option ι) : Prop :=
  -- no other thread is about to queue a message
  (∀ i, (s.inside (some i)).message? = none) ∧
    match thread with
    -- what is queued is run before the `handleWrite` that drains the buffer
    | none =>
      Sendless s.loop.pendingFunctors ∧ (Sendless s.loop.phase.functors ∨ s.conn.isWriting = true)
    | some _ =>
      Sendless s.loop.pendingFunctors ∨ s.loop.phase.swapsNext = true ∨
        Sendless s.loop.phase.functors ∧ s.conn.isWriting = false ∧ (s.inside none).message? = none

/-! ## The bytes -/

/-- The messages whose `sendInLoop` is queued. -/
def messages : List (Option ι × Bytes) := s.loop.queued.filterMap Queued.message?

/-- The message that a thread is about to send. -/
def flight (thread : Option ι) : List (Option ι × Bytes) :=
  ((s.inside thread).message?.map fun message => (thread, message)).toList

open ConnectionLoop (ofThread ofThread_append)

structure Streamed (s : Shutdown ι) (log : List (Event ι)) : Prop where
  written : s.conn.stream = ((sends log).map Prod.snd).flatten
  order : ∀ thread, ofThread thread (accepts log) = ofThread thread (sends log ++ s.messages) ++ s.flight thread
  interested : s.conn.Interested

section Bytes

variable {s t : Shutdown ι} {log new : List (Event ι)}

omit [DecidableEq ι] in
theorem accepts_append (log new : List (Event ι)) : accepts (log ++ new) = accepts log ++ accepts new :=
  List.filterMap_append

omit [DecidableEq ι] in
theorem sends_append (log new : List (Event ι)) : sends (log ++ new) = sends log ++ sends new :=
  List.filterMap_append

omit [DecidableEq ι] in
theorem Sendless.append {functors more : List (Queued ι)} (h : Sendless functors) (hmore : Sendless more) :
    Sendless (functors ++ more) := by
  intro cb hcb
  exact (List.mem_append.1 hcb).elim (h cb) (hmore cb)

omit [DecidableEq ι] in
theorem sendless_singleton {cb : Queued ι} (h : cb.message? = none) : Sendless [cb] := by
  intro cb' hcb'
  rwa [List.mem_singleton.1 hcb']

omit [DecidableEq ι] in
theorem sendless_completing (complete : Bool) :
    Sendless (if complete then [.writeComplete] else [] : List (Queued ι)) := by
  cases complete
  · exact nofun
  · exact sendless_singleton rfl

omit [DecidableEq ι] in
theorem Sendless.filterMap {functors : List (Queued ι)} (h : Sendless functors) :
    functors.filterMap Queued.message? = [] :=
  List.filterMap_eq_nil_iff.2 h

omit [DecidableEq ι] in
theorem flight_eq_nil {thread : Option ι} (h : (s.inside thread).message? = none) : s.flight thread = [] := by
  rw [flight, h]
  rfl

@[simp] theorem inside_enter (s : Shutdown ι) (thread : Option ι) (inside : Inside) :
    (s.enter thread inside).inside thread = inside := Function.update_self ..

theorem inside_enter_of_ne {thread th : Option ι} (inside : Inside) (hne : th ≠ thread) :
    (s.enter thread inside).inside th = s.inside th := Function.update_of_ne hne ..

theorem flight_of_ne {thread th : Option ι} {inside : Inside} (hne : th ≠ thread) :
    (s.enter thread inside).flight th = s.flight th := by
  simp only [flight, inside_enter_of_ne inside hne]

theorem ofThread_singleton (th thread : Option ι) (message : Bytes) :
    ofThread th [(thread, message)] = if th = thread then [(thread, message)] else [] := by
  rw [ofThread, List.filter_singleton]
  by_cases h : th = thread
  · simp [h]
  · simp [h, Ne.symm h]

/-- The thread of the loop queues no message. -/
theorem ofThread_none_messages (s : Shutdown ι) : ofThread none s.messages = [] := by
  refine List.filter_eq_nil_iff.2 fun x hx => ?_
  obtain ⟨cb, -, hcb⟩ := List.mem_filterMap.1 hx
  cases cb with
  | sendInLoop i message =>
    obtain rfl := Option.some.inj hcb
    simp
  | _ => cases hcb

@[simp] theorem queued_queue (s : Shutdown ι) (thread : Option ι) (cb : Queued ι) :
    (s.queue thread cb).loop.queued = s.loop.queued ++ [cb] := EventLoop.queued_queueInLoop ..

theorem pendingFunctors_completing (s : Shutdown ι) (conn : Connection × Bool) :
    (s.completing conn).loop.pendingFunctors =
      s.loop.pendingFunctors ++ if conn.2 then [.writeComplete] else [] := by
  simp only [completing]
  split
  · rfl
  · exact (List.append_nil _).symm

theorem phase_completing (s : Shutdown ι) (conn : Connection × Bool) :
    (s.completing conn).loop.phase = s.loop.phase := by
  simp only [completing]
  split <;> rfl

theorem queued_completing (s : Shutdown ι) (conn : Connection × Bool) :
    (s.completing conn).loop.queued = s.loop.queued ++ if conn.2 then [.writeComplete] else [] := by
  rw [EventLoop.queued, phase_completing, pendingFunctors_completing, ← List.append_assoc]
  rfl

theorem messages_completing (s : Shutdown ι) (conn : Connection × Bool) :
    (s.completing conn).messages = s.messages := by
  rw [messages, queued_completing, List.filterMap_append, (sendless_completing _).filterMap, List.append_nil, messages]

/-- Nothing is accepted or sent, and the bytes stay where they are. -/
theorem Streamed.quiet (h : Streamed s log) (haccepts : accepts new = []) (hsends : sends new = [])
    (hmessages : t.messages = s.messages) (hflight : ∀ thread, t.flight thread = s.flight thread)
    (hstream : t.conn.stream = s.conn.stream) (hinterested : t.conn.Interested) : Streamed t (log ++ new) := by
  constructor
  · rw [hstream, h.written, sends_append, hsends, List.append_nil]
  · intro thread
    rw [accepts_append, haccepts, List.append_nil, h.order, sends_append, hsends, List.append_nil, hmessages, hflight]
  · exact hinterested

theorem Streamed.enter (h : Streamed s log) {thread : Option ι} {inside : Inside}
    (hbefore : (s.inside thread).message? = none) (hafter : inside.message? = none) :
    Streamed (s.enter thread inside) log := by
  refine (List.append_nil log) ▸ h.quiet rfl rfl rfl (fun th => ?_) rfl h.interested
  by_cases hth : th = thread
  · subst hth
    rw [flight_eq_nil hbefore, flight_eq_nil]
    rwa [inside_enter]
  · exact flight_of_ne hth

/-- `send` finds the connection connected. -/
theorem Streamed.accept (h : Streamed s log) {thread : Option ι} (hidle : s.inside thread = .idle) (message : Bytes) :
    Streamed (s.enter thread (.sending message)) (log ++ [.accepted thread message]) := by
  have haccepts : accepts (log ++ [.accepted thread message]) = accepts log ++ [(thread, message)] := by
    rw [accepts_append]
    rfl
  have hsends : sends (log ++ [.accepted thread message]) = sends log := by
    rw [sends_append]
    exact List.append_nil _
  refine ⟨by rw [hsends]; exact h.written, fun th => ?_, h.interested⟩
  show _ = ofThread th (_ ++ s.messages) ++ _
  rw [haccepts, ofThread_append, h.order, hsends, ofThread_singleton]
  by_cases hth : th = thread
  · subst hth
    rw [flight_eq_nil (s := s) (by rw [hidle]; rfl), List.append_nil, if_pos rfl, flight, inside_enter]
    rfl
  · rw [if_neg hth, List.append_nil, flight_of_ne hth]

/-- `sendInLoop` of another thread's message is queued. -/
theorem Streamed.push (h : Streamed s log) {i : ι} {message : Bytes} (hsending : s.inside (some i) = .sending message) :
    Streamed ((s.enter (some i) .idle).queue (some i) (.sendInLoop i message)) log := by
  have hmessages : ((s.enter (some i) .idle).queue (some i) (.sendInLoop i message)).messages =
      s.messages ++ [(some i, message)] := by
    rw [messages, queued_queue, List.filterMap_append]
    rfl
  refine ⟨h.written, fun th => ?_, h.interested⟩
  show _ = _ ++ (s.enter (some i) .idle).flight th
  rw [h.order, hmessages, ← List.append_assoc, ofThread_append th (_ ++ _), ofThread_singleton]
  by_cases hth : th = some i
  · subst hth
    rw [if_pos rfl, flight_eq_nil (s := s.enter _ _) (by rw [inside_enter]; rfl), List.append_nil, flight, hsending]
    rfl
  · rw [if_neg hth, List.append_nil, flight_of_ne hth]

/-- The thread of the loop sends. -/
theorem Streamed.sendNow (h : Streamed s log) {message : Bytes} (hsending : s.inside none = .sending message)
    (result : WriteResult) :
    Streamed ((s.enter none .idle).sendInLoop message result) (log ++ [.sent none message]) := by
  have haccepts : accepts (log ++ [.sent none message]) = accepts log := by
    rw [accepts_append]
    exact List.append_nil _
  have hsends : sends (log ++ [.sent none message]) = sends log ++ [(none, message)] := by
    rw [sends_append]
    rfl
  refine ⟨?_, fun th => ?_, h.interested.sendInLoop message result⟩
  · refine (Connection.stream_sendInLoop message result).trans ?_
    show s.conn.stream ++ message = _
    rw [h.written, hsends]
    simp
  · have hmessages : ((s.enter none .idle).sendInLoop message result).messages = s.messages := messages_completing ..
    show _ = _ ++ (s.enter none .idle).flight th
    rw [haccepts, h.order, hsends, hmessages, ofThread_append, ofThread_append, ofThread_append, ofThread_singleton]
    by_cases hth : th = none
    · -- no message of the loop's own thread is queued
      subst hth
      rw [ofThread_none_messages, if_pos rfl, flight_eq_nil (s := s.enter _ _) (by rw [inside_enter]; rfl),
        flight, hsending]
      simp [Inside.message?]
    · rw [if_neg hth, List.append_nil, flight_of_ne hth]

/-- A queued `sendInLoop` is run. -/
theorem Streamed.sendQueued (h : Streamed s log) {i : ι} {message : Bytes} {loop : EventLoop ι (Queued ι)}
    (hqueued : s.loop.queued = .sendInLoop i message :: loop.queued) (result : WriteResult) :
    Streamed ({ s with loop }.sendInLoop message result) (log ++ [.sent (some i) message]) := by
  have haccepts : accepts (log ++ [.sent (some i) message]) = accepts log := by
    rw [accepts_append]
    exact List.append_nil _
  have hsends : sends (log ++ [.sent (some i) message]) = sends log ++ [(some i, message)] := by
    rw [sends_append]
    rfl
  have hmessages : s.messages = (some i, message) :: ({ s with loop }.sendInLoop message result).messages := by
    have hrest : ({ s with loop }.sendInLoop message result).messages = loop.queued.filterMap Queued.message? :=
      messages_completing ..
    rw [hrest, messages, hqueued]
    rfl
  refine ⟨?_, fun th => ?_, h.interested.sendInLoop message result⟩
  · refine (Connection.stream_sendInLoop message result).trans ?_
    rw [h.written, hsends]
    simp
  · show _ = _ ++ s.flight th
    rw [haccepts, h.order, hsends, hmessages, List.append_assoc, List.singleton_append]

/-- When nothing waits to be sent or to be written, everything is written. -/
theorem Streamed.drained (h : Streamed s log) (hmessages : s.messages = []) (hflight : ∀ thread, s.flight thread = [])
    (hwriting : s.conn.isWriting = false) :
    (accepts log).Perm (sends log) ∧ s.conn.wire = ((sends log).map Prod.snd).flatten := by
  constructor
  · refine ConnectionLoop.perm_of_ofThread fun thread => ?_
    rw [h.order, hmessages, hflight, List.append_nil, List.append_nil]
  · have hempty : s.conn.outputBuffer.content = [] := by
      by_contra hne
      rw [h.interested.2 hne] at hwriting
      cases hwriting
    have hwritten := h.written
    rwa [Connection.stream, hempty, List.append_nil] at hwritten

end Bytes

/-! ## What is still to come -/

/-- No thread has called `setState` yet. -/
structure Open (s : Shutdown ι) : Prop where
  connected : s.conn.state = .kConnected
  queued : .shutdownInLoop ∉ s.loop.queued
  inside : ∀ thread, s.inside thread ≠ .disconnecting

/-- The messages come before the `shutdownInLoop` that calls `shutdownWrite`. -/
structure Draining (s : Shutdown ι) : Prop where
  disconnecting : s.conn.state = .kDisconnecting
  foreign : ∀ i, (s.inside (some i)).message? = none
  /-- the next `handleWrite` is behind them, or finds nothing to write -/
  pending : Sendless s.loop.pendingFunctors ∨ s.loop.phase.swapsNext = true ∨
    Sendless s.loop.phase.functors ∧ s.conn.isWriting = false ∧ (s.inside none).message? = none
  behind : s.loop.queued.Pairwise fun cb later => cb = .shutdownInLoop → later.message? = none
  now : s.inside none = .disconnecting →
    Sendless s.loop.pendingFunctors ∧ (Sendless s.loop.phase.functors ∨ s.conn.isWriting = true)

structure Inv (s : Shutdown ι) (log : List (Event ι)) : Prop where
  streamed : Streamed s log
  drained : Drained log
  stage : Open s ∧ (∀ wire, .shutdownWrite wire ∉ log) ∨ Draining s

section Stages

variable {s t : Shutdown ι} {log new : List (Event ι)}

omit [DecidableEq ι] in
theorem mem_shutdownInLoop {conn : Connection} {e : Event ι} (h : e ∈ shutdownInLoop conn) :
    e = .shutdownWrite conn.wire ∧ conn.isWriting = false := by
  unfold shutdownInLoop at h
  split at h
  case isTrue => cases h
  case isFalse hwriting => exact ⟨List.mem_singleton.1 h, Bool.not_eq_true _ ▸ hwriting⟩

omit [DecidableEq ι] in
theorem accepts_shutdownInLoop (conn : Connection) : accepts (shutdownInLoop conn : List (Event ι)) = [] := by
  refine List.filterMap_eq_nil_iff.2 fun e he => ?_
  rw [(mem_shutdownInLoop he).1]
  rfl

omit [DecidableEq ι] in
theorem sends_shutdownInLoop (conn : Connection) : sends (shutdownInLoop conn : List (Event ι)) = [] := by
  refine List.filterMap_eq_nil_iff.2 fun e he => ?_
  rw [(mem_shutdownInLoop he).1]
  rfl

omit [DecidableEq ι] in
theorem drained_of_uncut (h : ∀ wire, .shutdownWrite wire ∉ log) : Drained log := by
  rintro l₁ wire l₂ rfl
  exact absurd (by simp) (h wire)

omit [DecidableEq ι] in
theorem Drained.concat (h : Drained log) {e : Event ι} (haccepted : e.accepted? = none)
    (hwrite : ∀ wire, e = .shutdownWrite wire →
      (accepts log).Perm (sends log) ∧ wire = ((sends log).map Prod.snd).flatten) : Drained (log ++ [e]) := by
  have haccepts : accepts (log ++ [e]) = accepts log := by
    rw [accepts_append]
    simp [accepts, haccepted]
  intro l₁ wire l₂ heq
  rw [haccepts]
  rcases l₂.eq_nil_or_concat with rfl | ⟨l, last, rfl⟩
  · obtain ⟨rfl, he⟩ := List.append_inj' heq rfl
    exact hwrite wire (List.singleton_injective he)
  · rw [List.concat_eq_append, ← List.cons_append, ← List.append_assoc] at heq
    exact h l₁ wire l (List.append_inj' heq rfl).1

theorem not_disconnecting_enter {thread th : Option ι} {inside : Inside} (hne : inside ≠ .disconnecting)
    (h : (s.enter thread inside).inside th = .disconnecting) : s.inside th = .disconnecting := by
  by_cases hth : th = thread
  · subst hth
    rw [inside_enter] at h
    exact absurd h hne
  · rwa [inside_enter_of_ne inside hth] at h

theorem Open.enter (h : Open s) (thread : Option ι) {inside : Inside} (hne : inside ≠ .disconnecting) :
    Open (s.enter thread inside) :=
  ⟨h.connected, h.queued, fun th hth => h.inside th (not_disconnecting_enter hne hth)⟩

theorem Open.queue (h : Open s) (thread : Option ι) {cb : Queued ι} (hcb : cb ≠ .shutdownInLoop) :
    Open (s.queue thread cb) := by
  refine ⟨h.connected, fun hmem => ?_, h.inside⟩
  rw [queued_queue, List.mem_append, List.mem_singleton] at hmem
  exact hmem.elim h.queued (Ne.symm hcb)

theorem Open.completing (h : Open s) {conn : Connection × Bool} (hstate : conn.1.state = s.conn.state) :
    Open (s.completing conn) := by
  refine ⟨hstate.trans h.connected, fun hmem => ?_, h.inside⟩
  rw [queued_completing, List.mem_append] at hmem
  refine h.queued (hmem.resolve_right ?_)
  split <;> simp

theorem Draining.enter (h : Draining s) (thread : Option ι) : Draining (s.enter thread .idle) := by
  have hmessage : ∀ th, (s.inside th).message? = none → ((s.enter thread .idle).inside th).message? = none := by
    intro th hth
    by_cases heq : th = thread
    · subst heq
      rw [inside_enter]
      rfl
    · rwa [inside_enter_of_ne _ heq]
  constructor
  · exact h.disconnecting
  · exact fun i => hmessage _ (h.foreign i)
  · exact h.pending.imp_right (.imp_right fun hright => ⟨hright.1, hright.2.1, hmessage none hright.2.2⟩)
  · exact h.behind
  · exact fun hnow => h.now (not_disconnecting_enter (show Inside.idle ≠ .disconnecting from nofun) hnow)

theorem Draining.queue (h : Draining s) (thread : Option ι) {cb : Queued ι} (hcb : cb.message? = none) :
    Draining (s.queue thread cb) := by
  constructor
  · exact h.disconnecting
  · exact h.foreign
  · exact h.pending.imp_left fun hpending => hpending.append (sendless_singleton hcb)
  · rw [queued_queue, List.pairwise_append]
    refine ⟨h.behind, List.pairwise_singleton .., fun _ _ later hlater _ => ?_⟩
    exact sendless_singleton hcb later hlater
  · exact fun hnow => ⟨(h.now hnow).1.append (sendless_singleton hcb), (h.now hnow).2⟩

theorem Draining.completing (h : Draining s) (hnow : s.inside none ≠ .disconnecting) {conn : Connection × Bool}
    (hstate : conn.1.state = s.conn.state)
    (hwriting : Sendless s.loop.pendingFunctors ∨ s.loop.phase.swapsNext = true ∨
      conn.1.isWriting = s.conn.isWriting) :
    Draining (s.completing conn) := by
  constructor
  · exact hstate.trans h.disconnecting
  · exact h.foreign
  · rw [pendingFunctors_completing, phase_completing]
    rcases hwriting with hpending | hswaps | hwriting
    · exact .inl (hpending.append (sendless_completing _))
    · exact .inr (.inl hswaps)
    · refine h.pending.imp (fun hpending => hpending.append (sendless_completing _)) (.imp_right fun hright => ?_)
      exact ⟨hright.1, hwriting.trans hright.2.1, hright.2.2⟩
  · rw [queued_completing, List.pairwise_append]
    refine ⟨h.behind, ?_, fun _ _ later hlater _ => sendless_completing _ later hlater⟩
    split
    · exact List.pairwise_singleton ..
    · exact .nil
  · exact fun h => absurd h hnow

/-- A step of the loop that calls no functor. -/
theorem Draining.loop (h : Draining s) {a : EventLoop.Action ι (Queued ι)} (hevents : s.loop.events a = [])
    {loop : EventLoop ι (Queued ι)} (hstep : s.loop.step a = some loop)
    (hidle : a = .loop .swap → s.inside none = .idle) : Draining { s with loop } := by
  have hqueued := EventLoop.queued_of_quiet hstep hevents
  have hbehind := h.behind
  rw [← hqueued] at hbehind
  rcases EventLoop.functors_step hstep hevents with ⟨hfunctors, hpending, hswaps⟩ | ⟨hswap, hfunctors, hpending⟩
  · refine ⟨h.disconnecting, h.foreign, ?_, hbehind, ?_⟩
    · simp only [hfunctors, hpending]
      exact h.pending.imp_right (.imp_left hswaps)
    · simpa only [hfunctors, hpending] using h.now
  · refine ⟨h.disconnecting, h.foreign, .inl ?_, hbehind, fun hnow => ?_⟩
    · simp only [hpending]
      exact nofun
    · exact absurd ((hidle hswap).symm.trans hnow) nofun

omit [DecidableEq ι] in
/-- While functors are run, what is pending holds no message, or the functors do not and nothing is to be written. -/
theorem Draining.running (h : Draining s) {cb : Queued ι} {functors : List (Queued ι)}
    (hfunctors : s.loop.phase.functors = cb :: functors) : Sendless s.loop.pendingFunctors ∨
      Sendless s.loop.phase.functors ∧ s.conn.isWriting = false ∧ (s.inside none).message? = none := by
  refine h.pending.imp_right fun hpending => hpending.resolve_left fun hswaps => ?_
  exact absurd (hfunctors.symm.trans (Phase.functors_of_swapsNext hswaps)) (List.cons_ne_nil _ _)

omit [DecidableEq ι] in
/-- A functor is taken to be run. -/
theorem Draining.pop (h : Draining s) {cb : Queued ι} {loop : EventLoop ι (Queued ι)}
    (hidle : s.inside none = .idle) (hfunctors : s.loop.phase.functors = cb :: loop.phase.functors)
    (hpending : loop.pendingFunctors = s.loop.pendingFunctors) : Draining { s with loop } := by
  constructor
  · exact h.disconnecting
  · exact h.foreign
  · simp only [hpending]
    refine (h.running hfunctors).imp_right fun hright => .inr ⟨fun later hlater => hright.1 later ?_, hright.2⟩
    rw [hfunctors]
    exact List.mem_cons_of_mem cb hlater
  · have hbehind := h.behind
    rw [EventLoop.queued, hfunctors, List.cons_append, ← hpending] at hbehind
    exact (List.pairwise_cons.1 hbehind).2
  · intro hnow
    cases hidle.symm.trans hnow

theorem Draining.setState (hstage : Open s ∨ Draining s) {thread : Option ι} (hfine : s.Fine thread) :
    Draining (s.setState thread) := by
  obtain ⟨hforeign, hfine⟩ := hfine
  have hmessage : ∀ th, (s.inside th).message? = none → ((s.setState thread).inside th).message? = none := by
    intro th hth
    by_cases heq : th = thread
    · subst heq
      rw [Shutdown.setState, inside_enter]
      rfl
    · rw [Shutdown.setState, inside_enter_of_ne _ heq]
      exact hth
  have hbehind : s.loop.queued.Pairwise fun cb later => cb = .shutdownInLoop → later.message? = none := by
    rcases hstage with hopen | hdraining
    · refine List.pairwise_of_forall_mem_list fun cb hcb _ _ heq => ?_
      exact absurd (heq ▸ hcb) hopen.queued
    · exact hdraining.behind
  cases thread with
  | none =>
    exact ⟨rfl, fun i => hmessage _ (hforeign i), .inl hfine.1, hbehind, fun _ => hfine⟩
  | some i =>
    refine ⟨rfl, fun i => hmessage _ (hforeign i), ?_, hbehind, fun hnow => ?_⟩
    · exact hfine.imp_right (.imp_right fun hright => ⟨hright.1, hright.2.1, hmessage none hright.2.2⟩)
    · have hnow : s.inside none = .disconnecting := by
        rwa [Shutdown.setState, inside_enter_of_ne _ (nofun : none ≠ some i)] at hnow
      rcases hstage with hopen | hdraining
      · exact absurd hnow (hopen.inside none)
      · exact hdraining.now hnow

omit [DecidableEq ι] in
theorem Draining.flight (h : Draining s) (hidle : s.inside none = .idle) (thread : Option ι) : s.flight thread = [] := by
  cases thread with
  | none => exact flight_eq_nil (by rw [hidle]; rfl)
  | some i => exact flight_eq_nil (h.foreign i)

end Stages

/-! ## What a step keeps -/

section Steps

variable {s t : Shutdown ι} {log : List (Event ι)}

/-- Nothing is accepted, sent or shut down. -/
theorem Inv.quiet (h : Inv s log) (hstreamed : Streamed t log) (hopen : Open s → Open t)
    (hdraining : Draining s → Draining t) : Inv t (log ++ []) := by
  rw [List.append_nil]
  exact ⟨hstreamed, h.drained, h.stage.imp (And.imp_left hopen) hdraining⟩

/-- `sendInLoop` is called. -/
theorem Inv.sent (h : Inv s log) {thread : Option ι} {message : Bytes}
    (hstreamed : Streamed t (log ++ [.sent thread message])) (hopen : Open s → Open t)
    (hdraining : Draining s → Draining t) : Inv t (log ++ [.sent thread message]) := by
  refine ⟨hstreamed, h.drained.concat rfl nofun, h.stage.imp (fun ⟨hs, huncut⟩ => ⟨hopen hs, fun wire hmem => ?_⟩)
    hdraining⟩
  exact (List.mem_append.1 hmem).elim (huncut wire) (by simp)

/-- `shutdownInLoop` is called. -/
theorem Inv.shutdownInLoop (h : Inv s log) (hstreamed : Streamed t log) (hdraining : Draining t)
    (hidle : t.inside none = .idle) (hmessages : t.conn.isWriting = false → Sendless t.loop.queued) :
    Inv t (log ++ shutdownInLoop t.conn) := by
  refine ⟨?_, ?_, .inr hdraining⟩
  · exact hstreamed.quiet (accepts_shutdownInLoop _) (sends_shutdownInLoop _) rfl (fun _ => rfl) rfl
      hstreamed.interested
  · unfold Shutdown.shutdownInLoop
    split
    case isTrue =>
      rw [List.append_nil]
      exact h.drained
    case isFalse hwriting =>
      have hwriting : t.conn.isWriting = false := Bool.not_eq_true _ ▸ hwriting
      refine h.drained.concat rfl fun wire hwire => ?_
      obtain rfl := Event.shutdownWrite.inj hwire
      exact hstreamed.drained (hmessages hwriting).filterMap (hdraining.flight hidle) hwriting

theorem Inv.send (h : Inv s log) {thread : Option ι} (hidle : s.inside thread = .idle) (message : Bytes) :
    Inv (if s.conn.state = .kConnected then s.enter thread (.sending message) else s)
      (log ++ s.events (.send thread message)) := by
  simp only [events]
  split
  case isFalse => rwa [List.append_nil]
  case isTrue hconnected =>
    rcases h.stage with ⟨hopen, huncut⟩ | hdraining
    · have huncut' : ∀ wire, .shutdownWrite wire ∉ log ++ [.accepted thread message] := by
        intro wire hmem
        exact (List.mem_append.1 hmem).elim (huncut wire) (by simp)
      exact ⟨h.streamed.accept hidle message, drained_of_uncut huncut', .inl ⟨hopen.enter thread nofun, huncut'⟩⟩
    · rw [hdraining.disconnecting] at hconnected
      cases hconnected

theorem Inv.shutdown (h : Inv s log) {thread : Option ι} (hidle : s.inside thread = .idle) :
    Inv (if s.conn.state = .kConnected then s.enter thread .shutting else s) (log ++ []) := by
  split
  case isFalse => rwa [List.append_nil]
  case isTrue hconnected =>
    refine h.quiet (h.streamed.enter (by rw [hidle]; rfl) rfl) (fun hopen => hopen.enter thread nofun) fun hdraining => ?_
    rw [hdraining.disconnecting] at hconnected
    cases hconnected

theorem Inv.setState (h : Inv s log) {thread : Option ι} (hshutting : s.inside thread = .shutting)
    (hfine : s.Fine thread) : Inv (s.setState thread) (log ++ []) := by
  have hstreamed : Streamed (s.enter thread .disconnecting) log := h.streamed.enter (by rw [hshutting]; rfl) rfl
  rw [List.append_nil]
  refine ⟨⟨hstreamed.written, hstreamed.order, hstreamed.interested⟩, h.drained, .inr ?_⟩
  exact .setState (h.stage.imp_left And.left) hfine

theorem Inv.queue (h : Inv s log) (thread : Option ι) {cb : Queued ι} (hmessage : cb.message? = none)
    (hcb : Open s → cb ≠ .shutdownInLoop) : Inv (s.queue thread cb) (log ++ []) := by
  refine h.quiet ?_ (fun hopen => hopen.queue thread (hcb hopen)) fun hdraining => hdraining.queue thread hmessage
  refine (List.append_nil log) ▸ h.streamed.quiet rfl rfl ?_ (fun _ => rfl) rfl h.streamed.interested
  rw [messages, queued_queue, List.filterMap_append, (sendless_singleton hmessage).filterMap, List.append_nil, messages]

theorem Inv.runInLoop (h : Inv s log) {thread : Option ι} {result : WriteResult}
    (hrun : s.runInLoop thread result = some t) : Inv t (log ++ s.events (.runInLoop thread result)) := by
  unfold Shutdown.runInLoop at hrun
  simp only [events]
  split at hrun
  case h_1 message hsending =>
    obtain rfl := Option.some.inj hrun
    rw [hsending]
    refine h.sent (h.streamed.sendNow hsending result) (fun hopen => ?_) fun hdraining => ?_
    · exact (hopen.enter none (by decide)).completing (Connection.state_sendInLoop ..)
    · refine (hdraining.enter none).completing (by rw [inside_enter]; nofun) (Connection.state_sendInLoop ..) ?_
      refine hdraining.pending.imp_right (.imp_right fun hright => ?_)
      rw [hsending] at hright
      exact absurd hright.2.2 nofun
  case h_2 message i hsending =>
    obtain rfl := Option.some.inj hrun
    rw [hsending]
    refine h.quiet (h.streamed.push hsending) (fun hopen => ?_) fun hdraining => ?_
    · exact (hopen.enter _ (by decide)).queue _ (by nofun)
    · exact absurd ((congrArg Inside.message? hsending).symm.trans (hdraining.foreign i)) nofun
  case h_3 hnow =>
    obtain rfl := Option.some.inj hrun
    rw [hnow]
    have hdraining : Draining s := h.stage.resolve_left fun hopen => hopen.1.inside none hnow
    refine h.shutdownInLoop (t := s.enter none .idle) (h.streamed.enter (by rw [hnow]; rfl) rfl) (hdraining.enter none)
      (inside_enter ..) fun hwriting => ?_
    obtain ⟨hpending, hfunctors⟩ := hdraining.now hnow
    refine (hfunctors.resolve_right fun hwriting' => ?_).append hpending
    exact absurd (hwriting'.symm.trans hwriting) nofun
  case h_4 i hnow =>
    obtain rfl := Option.some.inj hrun
    rw [hnow]
    have hdraining : Draining s := h.stage.resolve_left fun hopen => hopen.1.inside _ hnow
    have henter : Inv (s.enter (some i) .idle) log :=
      ⟨h.streamed.enter (by rw [hnow]; rfl) rfl, h.drained, .inr (hdraining.enter _)⟩
    exact henter.queue _ rfl fun hopen => absurd (hopen.connected.symm.trans hdraining.disconnecting) nofun
  case h_5 => cases hrun

/-- A step of the loop that calls no functor. -/
theorem Inv.loop (h : Inv s log) {a : EventLoop.Action ι (Queued ι)} (hevents : s.loop.events a = [])
    {loop : EventLoop ι (Queued ι)} (hstep : s.loop.step a = some loop)
    (hidle : a = .loop .swap → s.inside none = .idle) : Inv { s with loop } (log ++ []) := by
  have hqueued := EventLoop.queued_of_quiet hstep hevents
  refine h.quiet ?_ (fun hopen => ?_) fun hdraining => hdraining.loop hevents hstep hidle
  · refine (List.append_nil log) ▸ h.streamed.quiet rfl rfl ?_ (fun _ => rfl) rfl h.streamed.interested
    simp only [messages, hqueued]
  · exact ⟨hopen.connected, hqueued ▸ hopen.queued, hopen.inside⟩

/-- A functor is taken to be run, other than a `sendInLoop`. -/
theorem Streamed.pop (h : Streamed s log) {cb : Queued ι} {loop : EventLoop ι (Queued ι)}
    (hqueued : s.loop.queued = cb :: loop.queued) (hmessage : cb.message? = none) : Streamed { s with loop } log := by
  refine (List.append_nil log) ▸ h.quiet rfl rfl ?_ (fun _ => rfl) rfl h.interested
  simp only [messages, hqueued]
  rw [List.filterMap_cons_none hmessage]

theorem Inv.functor (h : Inv s log) {result : WriteResult} (hstep : s.step (.functor result) = some t) :
    Inv t (log ++ s.events (.functor result)) := by
  obtain ⟨hidle, hstep⟩ := Option.ite_none_right_eq_some.1 hstep
  obtain ⟨cb, hcb, hmap⟩ := Option.bind_eq_some_iff.1 hstep
  obtain ⟨loop, hloop, rfl⟩ := Option.map_eq_some_iff.1 hmap
  obtain ⟨-, hadvance⟩ := Option.ite_none_right_eq_some.1 hloop
  obtain ⟨cb', hfunctors, hpending⟩ := EventLoop.functors_of_functor hadvance
  obtain rfl : cb' = cb := by
    rw [hfunctors] at hcb
    exact Option.some.inj hcb
  have hqueued := EventLoop.queued_of_functor hloop hcb
  have hopen : Open s → Open { s with loop } := by
    intro hopen
    refine ⟨hopen.connected, fun hmem => hopen.queued ?_, hopen.inside⟩
    rw [hqueued]
    exact List.mem_cons_of_mem cb' hmem
  have hdraining : Draining s → Draining { s with loop } := fun h => h.pop hidle hfunctors hpending
  simp only [events, hcb]
  cases cb' with
  | sendInLoop i message =>
    refine h.sent (h.streamed.sendQueued hqueued result) (fun hs => ?_) fun hs => ?_
    · exact (hopen hs).completing (Connection.state_sendInLoop ..)
    · refine (hdraining hs).completing (by simp [hidle]) (Connection.state_sendInLoop ..) (.inl ?_)
      simp only [hpending]
      refine (hs.running hfunctors).resolve_right fun hright => ?_
      have hnone := hright.1 (.sendInLoop i message) (hfunctors ▸ List.mem_cons_self)
      cases hnone
  | shutdownInLoop =>
    have hs : Draining s := by
      refine h.stage.resolve_left fun hopen => hopen.1.queued ?_
      rw [hqueued]
      exact List.mem_cons_self
    refine h.shutdownInLoop (t := { s with loop }) (h.streamed.pop hqueued rfl) (hdraining hs) hidle fun _ => ?_
    have hbehind := hs.behind
    rw [hqueued] at hbehind
    exact fun later hlater => (List.pairwise_cons.1 hbehind).1 later hlater rfl
  | writeComplete | other => exact h.quiet (h.streamed.pop hqueued rfl) hopen hdraining

theorem Inv.handleWrite (h : Inv s log) (hhandling : s.Handling) (result : WriteResult) :
    Inv (s.completing (s.conn.handleWrite result)) (log ++ s.events (.handleWrite result)) := by
  obtain ⟨-, hcalls, hcollects, hidle⟩ := hhandling
  have hstreamed : Streamed (s.completing (s.conn.handleWrite result)) log :=
    (List.append_nil log) ▸ h.streamed.quiet rfl rfl (messages_completing ..) (fun _ => rfl)
      (Connection.stream_handleWrite result) (h.streamed.interested.handleWrite result)
  have hdraining : Draining s → Draining (s.completing (s.conn.handleWrite result)) := by
    intro hs
    refine hs.completing (by simp [hidle]) (Connection.state_handleWrite result)
      (hs.pending.imp_right (.imp_right fun hright => ?_))
    unfold Connection.handleWrite
    rw [if_neg (by simp [hright.2.1])]
  simp only [events]
  split
  case isFalse =>
    exact h.quiet hstreamed (fun hopen => hopen.completing (Connection.state_handleWrite result)) hdraining
  case isTrue hdrains =>
    obtain ⟨hwriting, -, hdisconnecting⟩ := hdrains
    have hs : Draining s := by
      refine h.stage.resolve_left fun hopen => ?_
      exact absurd (hopen.1.connected.symm.trans hdisconnecting) nofun
    refine h.shutdownInLoop hstreamed (hdraining hs) hidle fun _ => ?_
    have hpending : Sendless s.loop.pendingFunctors := by
      refine hs.pending.resolve_right ?_
      rintro (hswaps | hright)
      · exact absurd hswaps (Phase.not_swapsNext_of_calls hcalls)
      · exact absurd (hwriting.symm.trans hright.2.1) nofun
    have hfunctors : s.loop.phase.functors = [] := Phase.functors_of_collects hcollects
    rw [queued_completing, EventLoop.queued, hfunctors, List.nil_append]
    exact hpending.append (sendless_completing _)

/-- The step, if it is a `setState`, cuts nothing off. -/
def Careful (s : Shutdown ι × List (Event ι)) : Action ι → Prop
  | .setState thread => s.1.Fine thread
  | _ => True

theorem Inv.step (h : Inv s log) {a : Action ι} (hcareful : Careful (s, log) a) (hstep : s.step a = some t) :
    Inv t (log ++ s.events a) := by
  cases a with
  | send thread message =>
    obtain ⟨hfree, heq⟩ := Option.ite_none_right_eq_some.1 hstep
    obtain rfl := Option.some.inj heq
    exact h.send hfree.2 message
  | shutdown thread =>
    obtain ⟨hfree, heq⟩ := Option.ite_none_right_eq_some.1 hstep
    obtain rfl := Option.some.inj heq
    exact h.shutdown hfree.2
  | setState thread =>
    obtain ⟨hshutting, heq⟩ := Option.ite_none_right_eq_some.1 hstep
    obtain rfl := Option.some.inj heq
    exact h.setState hshutting hcareful
  | runInLoop thread result => exact h.runInLoop hstep
  | queueOther thread =>
    obtain ⟨-, heq⟩ := Option.ite_none_right_eq_some.1 hstep
    obtain rfl := Option.some.inj heq
    exact h.queue thread rfl fun _ => nofun
  | quit thread =>
    obtain ⟨-, hmap⟩ := Option.ite_none_right_eq_some.1 hstep
    obtain ⟨loop, hloop, rfl⟩ := Option.map_eq_some_iff.1 hmap
    exact h.loop rfl hloop nofun
  | wakeup thread =>
    obtain ⟨loop, hloop, rfl⟩ := Option.map_eq_some_iff.1 hstep
    exact h.loop rfl hloop nofun
  | functor result => exact h.functor hstep
  | loop a =>
    obtain ⟨⟨hidle, hne⟩, hmap⟩ := Option.ite_none_right_eq_some.1 hstep
    obtain ⟨loop, hloop, rfl⟩ := Option.map_eq_some_iff.1 hmap
    refine h.loop ?_ hloop fun _ => hidle
    cases a with
    | functor => exact absurd rfl hne
    | _ => rfl
  | handleWrite result =>
    obtain ⟨hhandling, heq⟩ := Option.ite_none_right_eq_some.1 hstep
    obtain rfl := Option.some.inj heq
    exact h.handleWrite hhandling result

theorem inv_step (s : Shutdown ι × List (Event ι)) (a : Action ι) (t : Shutdown ι × List (Event ι))
    (hcareful : Careful s a) (hstep : (machine.logged events).step s a = some t) : Inv s.1 s.2 → Inv t.1 t.2 := by
  intro h
  obtain ⟨t, ht, rfl⟩ := Option.map_eq_some_iff.1 hstep
  exact h.step hcareful ht

theorem inv_new (writeCompleteCallback : Bool) : Inv (new writeCompleteCallback : Shutdown ι) [] := by
  refine ⟨⟨?_, fun _ => rfl, nofun, fun hne => absurd Buffer.content_new hne⟩, drained_of_uncut nofun,
    .inl ⟨⟨rfl, nofun, nofun⟩, nofun⟩⟩
  show [] ++ Buffer.new.content = []
  rw [Buffer.content_new]
  rfl

end Steps

/-- **Nothing is cut off**: in a run in which every `shutdown` sets the state when no message can come too late
(`Fine`), all accepted messages are written, whole, whenever `shutdownWrite` is called. -/
theorem drained_of_run {writeCompleteCallback : Bool} {l : List (Action ι)} {s : Shutdown ι} {log : List (Event ι)}
    (h : (machine.logged events).Run Careful (new writeCompleteCallback, []) l (s, log)) : Drained log :=
  (h.invariant inv_step (inv_new writeCompleteCallback)).drained

section Samples

instance {n : ℕ} (s : Shutdown (Fin n)) (thread : Option (Fin n)) : Decidable (s.Fine thread) :=
  match thread with
  | none => inferInstanceAs (Decidable ((∀ i, (s.inside (some i)).message? = none) ∧
      Sendless s.loop.pendingFunctors ∧ (Sendless s.loop.phase.functors ∨ s.conn.isWriting = true)))
  | some _ => inferInstanceAs (Decidable ((∀ i, (s.inside (some i)).message? = none) ∧
      (Sendless s.loop.pendingFunctors ∨ s.loop.phase.swapsNext = true ∨
        Sendless s.loop.phase.functors ∧ s.conn.isWriting = false ∧ (s.inside none).message? = none)))

instance {n : ℕ} (s : Shutdown (Fin n) × List (Event (Fin n))) (a : Action (Fin n)) : Decidable (Careful s a) :=
  match a with
  | .setState thread => inferInstanceAs (Decidable (s.1.Fine thread))
  | .send .. | .shutdown _ | .runInLoop .. | .queueOther _ | .quit _ | .wakeup _ | .functor _ | .loop _ |
    .handleWrite _ => .isTrue trivial

/-- Another thread's message is written in two parts, and the thread of the loop calls `shutdown` in between. -/
def lastByte : List (Action (Fin 1)) :=
  [.send (some 0) [1, 2, 3], .runInLoop (some 0) .error, .wakeup (some 0), .loop .test, .loop (.poll [true]),
    .loop .handleEvent, .loop .doPendingFunctors, .loop .swap, .functor (.wrote 2), .loop .returns, .loop .done,
    .loop .test, .loop (.poll [false]), .loop .handleEvent, .shutdown none, .setState none,
    .runInLoop none .error, .handleWrite (.wrote 1)]

theorem drained_of_run_lastByte :
    ∃ s, (machine.logged events).Run Careful (new true, []) lastByte s ∧ Drained s.2 ∧
      s.2 = [.accepted (some 0) [1, 2, 3], .sent (some 0) [1, 2, 3], .shutdownWrite [1, 2, 3]] := by
  obtain ⟨s, hs, hlog⟩ := (Option.any_eq_true (fun s : Shutdown (Fin 1) × List (Event (Fin 1)) => decide
    (s.2 = [.accepted (some 0) [1, 2, 3], .sent (some 0) [1, 2, 3], .shutdownWrite [1, 2, 3]]))
    ((machine.logged events).execIf Careful (new true, []) lastByte)).1 (by decide +kernel)
  exact ⟨s, Machine.run_of_execIf hs, drained_of_run (Machine.run_of_execIf hs), of_decide_eq_true hlog⟩

/-- Another thread's message is still queued when the thread of the loop shuts down. -/
theorem cut_off_by_shutdown :
    ∃ s : Shutdown (Fin 1), (machine.logged events).Run (fun _ _ => True) (new true, [])
        [.send (some 0) [1, 2, 3], .runInLoop (some 0) .error, .wakeup (some 0), .loop .test, .loop (.poll [false]),
          .loop .handleEvent, .shutdown none, .setState none, .runInLoop none .error]
        (s, [.accepted (some 0) [1, 2, 3], .shutdownWrite []]) ∧
      ¬Drained [.accepted (some (0 : Fin 1)) [1, 2, 3], .shutdownWrite []] := by
  refine ⟨_, Machine.run_of_exec rfl, fun hdrained => ?_⟩
  obtain ⟨hperm, -⟩ := hdrained [.accepted (some 0) [1, 2, 3]] [] [] rfl
  exact absurd hperm.length_eq (by decide)

end Samples

end Shutdown

end Chatroom.Net
